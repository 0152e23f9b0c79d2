import FileStyle.Proofs.ReadableNames
import FileStyle.Proofs.SheetKeys

/-!
# Foreseen errors

The style of a path can fail at the path, at a style file, at a section name or at a value.
All of these failures are foreseen but two, both at a section name: a bound of too many
digits, and a range of characters that runs downward. So every error is foreseen where the
section names above a path are sound; and where they have no unmatched braces, which can be
found first, nowhere else.
-/

namespace FileStyle

/-! ## Section names stand in one line -/

namespace Text

theorem not_isLineBreak_of_mem_lines {s line : List Char} (h : line ∈ lines s) {c : Char}
    (hc : c ∈ line) : isLineBreak c = false := by
  fun_induction lines s generalizing line with
  | case1 => cases h
  | case2 rest ih =>
      rcases List.mem_cons.mp h with rfl | hrest
      · cases hc
      · exact ih hrest hc
  | case3 first rest _ _ ih =>
      rcases List.mem_cons.mp h with rfl | hrest
      · cases hc
      · exact ih hrest hc
  | case4 first rest _ hfirst hnone ih =>
      rw [List.mem_singleton.mp h] at hc
      rw [List.mem_singleton.mp hc]
      exact Bool.eq_false_of_not_eq_true hfirst
  | case5 first rest _ hfirst next others hlines ih =>
      rw [hlines] at ih
      rcases List.mem_cons.mp h with rfl | hrest
      · rcases List.mem_cons.mp hc with rfl | hnext
        · exact Bool.eq_false_of_not_eq_true hfirst
        · exact ih List.mem_cons_self hnext
      · exact ih (List.mem_cons_of_mem next hrest) hc

theorem mem_of_mem_trim {s : List Char} {c : Char} (h : c ∈ trim s) : c ∈ s := by
  have hright : trim s <+: trimLeft s := trimRight_prefix _
  have hleft : trimLeft s <:+ s := List.dropWhile_suffix isBlank
  exact hleft.mem (hright.mem h)

end Text

theorem Line.mem_of_read_header {s : List Char} {name : String}
    (h : Line.read s = .ok (.header name)) {c : Char} (hc : c ∈ name.toList) : c ∈ s := by
  unfold read at h
  split at h
  · cases h
  · next first rest =>
      split at h
      · cases h
      · split at h
        · unfold readHeader at h
          split at h
          · cases h
          · next bracket before hdrop =>
              cases h
              rw [String.toList_ofList, List.mem_reverse] at hc
              have hsuffix := List.dropWhile_suffix (l := rest.reverse) (fun c => decide (c ≠ ']'))
              rw [hdrop] at hsuffix
              exact List.mem_cons_of_mem _
                (List.mem_reverse.mp (hsuffix.mem (List.mem_cons_of_mem _ hc)))
        · unfold readPair at h
          split at h
          · cases h
          · dsimp only at h
            split at h
            · cases h
            · cases h

namespace StyleSheet

theorem mem_of_mem_lineText {number : Nat} {raw : List Char} {c : Char}
    (h : c ∈ lineText number raw) : c ∈ raw := by
  unfold lineText at h
  split at h
  · exact Text.mem_of_mem_trim ((List.dropWhile_suffix _).mem h)
  · exact Text.mem_of_mem_trim h

theorem mem_names_addLine {sheet : StyleSheet} {number : Nat} {line : Line} {name : String}
    (h : name ∈ (sheet.addLine number line).sections.map (·.name)) :
    line = .header name ∨ name ∈ sheet.sections.map (·.name) := by
  cases line with
  | ignored => exact .inr h
  | header other =>
      rcases List.mem_cons.mp h with rfl | hold
      · exact .inl rfl
      · exact .inr hold
  | pair key value =>
      right
      unfold addLine at h
      dsimp only at h
      split at h
      · exact h
      · split at h
        · exact h
        · next hsections =>
            rw [hsections]
            exact h

theorem exists_header_of_addLines {sheet result : StyleSheet} {number : Nat}
    {lines : List (List Char)} (h : sheet.addLines number lines = .ok result) {name : String}
    (hname : name ∈ result.sections.map (·.name)) :
    name ∈ sheet.sections.map (·.name) ∨
      ∃ raw ∈ lines, ∃ n, Line.read (lineText n raw) = .ok (.header name) := by
  induction lines generalizing sheet number with
  | nil =>
      cases h
      exact .inl hname
  | cons raw lines ih =>
      unfold addLines at h
      split at h
      · cases h
      · next line hline =>
          rcases ih h with hadded | ⟨other, hother, hheader⟩
          · rcases mem_names_addLine hadded with rfl | hold
            · exact .inr ⟨raw, List.mem_cons_self, number, hline⟩
            · exact .inl hold
          · exact .inr ⟨other, List.mem_cons_of_mem raw hother, hheader⟩

theorem not_isLineBreak_of_mem_name {text : List Char} {sheet : StyleSheet}
    (h : parse text = .ok sheet) {s : Section} (hs : s ∈ sheet.sections) {c : Char}
    (hc : c ∈ s.name.toList) : Text.isLineBreak c = false := by
  rcases map_eq_ok_iff.mp h with ⟨held, hheld, rfl⟩
  have hname : s.name ∈ held.sections.map (·.name) :=
    List.mem_map_of_mem (List.mem_reverse.mp hs)
  rcases exists_header_of_addLines hheld hname with hnone | ⟨raw, hraw, n, hheader⟩
  · cases hnone
  · exact Text.not_isLineBreak_of_mem_lines hraw
      (mem_of_mem_lineText (Line.mem_of_read_header hheader hc))

end StyleSheet

theorem StyleFile.exists_parse_of_read {path : Path} {bytes : List UInt8} {f : StyleFile}
    (h : StyleFile.read path bytes = .ok f) : ∃ text, StyleSheet.parse text = .ok f.sheet := by
  unfold read at h
  split at h
  · cases h
  · next text _ =>
      split at h
      · cases h
      · next sheet hsheet =>
          cases h
          exact ⟨text, hsheet⟩

theorem Tree.line_of_mem_styleFiles {t : Tree} {cwd : Location} {target : Path}
    {fileName : String} {files : List StyleFile}
    (h : t.styleFiles cwd target fileName = .ok files) {f : StyleFile} (hf : f ∈ files)
    {s : Section} (hs : s ∈ f.sheet.sections) : '\n' ∉ s.name.toList := by
  rcases exists_read_of_mem_gatherStyleFiles h hf with ⟨_, -, _, hread⟩
  rcases StyleFile.exists_parse_of_read hread with ⟨text, hparse⟩
  intro hmem
  have hbreak := StyleSheet.not_isLineBreak_of_mem_name hparse hs hmem
  exact absurd hbreak (by decide)

/-! ## Errors of the sections -/

open Glob

theorem exists_of_applicable_error {path : String} {sections : List Section} {e : GlobError}
    (h : applicable path sections = .error e) :
    ∃ s ∈ sections, Matcher.ofName s.name = .error e := by
  induction sections with
  | nil => cases h
  | cons s sections ih =>
      rcases bind_eq_error_iff.mp h with hname | ⟨applies, -, h⟩
      · exact ⟨s, List.mem_cons_self, map_eq_error_iff.mp hname⟩
      · rcases bind_eq_error_iff.mp h with hrest | ⟨others, -, h⟩
        · rcases ih hrest with ⟨other, hother, hfault⟩
          exact ⟨other, List.mem_cons_of_mem s hother, hfault⟩
        · cases h

theorem exists_ofName_of_applicable {path : String} {sections others : List Section}
    (h : applicable path sections = .ok others) :
    ∀ s ∈ sections, ∃ m, Matcher.ofName s.name = .ok m := by
  induction sections generalizing others with
  | nil =>
      intro s hs
      cases hs
  | cons s sections ih =>
      rcases bind_eq_ok_iff.mp h with ⟨applies, hname, h⟩
      rcases bind_eq_ok_iff.mp h with ⟨rest, hrest, -⟩
      rcases map_eq_ok_iff.mp hname with ⟨m, hm, -⟩
      exact List.forall_mem_cons.mpr ⟨⟨m, hm⟩, ih hrest⟩

namespace StyleFile

variable {target : Path} {f : StyleFile} {files : List StyleFile} {e : ResolveError}

def RefusesName (files : List StyleFile) (e : ResolveError) : Prop :=
  ∃ f ∈ files, ∃ s ∈ f.sheet.sections, ∃ fault,
    Matcher.ofName s.name = .error fault ∧ e = .badGlob fault

theorem refusesName_of_allSectionsFor
    (hbelow : ∀ f ∈ files, ∃ names, target.below? f.directory = some names)
    (h : allSectionsFor target files = .error e) : RefusesName files e := by
  induction files with
  | nil => cases h
  | cons f files ih =>
      have hall := List.forall_mem_cons.mp hbelow
      rcases bind_eq_error_iff.mp h with hfarther | ⟨before, -, h⟩
      · rcases ih hall.right hfarther with ⟨other, hother, hrefused⟩
        exact ⟨other, List.mem_cons_of_mem f hother, hrefused⟩
      rcases bind_eq_error_iff.mp h with hown | ⟨own, -, h⟩
      · rcases hall.left with ⟨names, hnames⟩
        rw [sectionsFor, hnames] at hown
        rcases mapError_eq_error_iff.mp hown with ⟨fault, hfault, rfl⟩
        rcases exists_of_applicable_error hfault with ⟨s, hs, hname⟩
        exact ⟨f, List.mem_cons_self, s, hs, fault, hname, rfl⟩
      · cases h

theorem exists_ofName_of_allSectionsFor {sections : List Section}
    (h : allSectionsFor target files = .ok sections) :
    ∀ f ∈ files, ∀ s ∈ f.sheet.sections, ∃ m, Matcher.ofName s.name = .ok m := by
  induction files generalizing sections with
  | nil =>
      intro f hf
      cases hf
  | cons f files ih =>
      rcases bind_eq_ok_iff.mp h with ⟨before, hbefore, h⟩
      rcases bind_eq_ok_iff.mp h with ⟨own, hown, -⟩
      refine List.forall_mem_cons.mpr ⟨?_, ih hbefore⟩
      unfold sectionsFor at hown
      split at hown
      · cases hown
      · exact exists_ofName_of_applicable (mapError_eq_ok_iff.mp hown)

theorem foreseen_of_read {path : Path} {bytes : List UInt8}
    (h : StyleFile.read path bytes = .error e) : e.isForeseen = true := by
  unfold read at h
  split at h
  · cases h
    rfl
  · split at h
    · cases h
      rfl
    · cases h

theorem foreseen_of_readContents {path : Path} {contents : Contents}
    (h : StyleFile.readContents path contents = .error e) : e.isForeseen = true := by
  cases contents with
  | bytes bytes => exact foreseen_of_read h
  | locked =>
      cases h
      rfl

end StyleFile

/-! ## Errors of the style -/

namespace Tree

variable {t : Tree} {cwd : Location} {path target : Path} {fileName name : String}
  {files : List StyleFile} {e : ResolveError}

theorem foreseen_of_canonical (h : t.canonical cwd path = .error e) : e.isForeseen = true := by
  unfold canonical at h
  split at h
  · cases h
  · cases h
    rfl

theorem foreseen_of_gatherStyleFiles {candidates : List Path}
    (h : t.gatherStyleFiles cwd candidates = .error e) : e.isForeseen = true := by
  induction candidates with
  | nil => cases h
  | cons candidate candidates ih =>
      unfold gatherStyleFiles at h
      split at h
      · exact ih h
      · rcases bind_eq_error_iff.mp h with hfirst | ⟨first, -, h⟩
        · exact StyleFile.foreseen_of_readContents hfirst
        split at h
        · cases h
        · rcases bind_eq_error_iff.mp h with hrest | ⟨others, -, h⟩
          · exact ih hrest
          · cases h

/-- An error of the style is foreseen, or some section name above the path is refused for
it. -/
theorem foreseen_or_refusesName (hname : Path.ofText fileName = ⟨.relative, [name]⟩)
    (h : t.style cwd path fileName = .error e) :
    e.isForeseen = true ∨
      ∃ target files, t.canonical cwd path = .ok target ∧
        t.styleFiles cwd target fileName = .ok files ∧ StyleFile.RefusesName files e := by
  rcases bind_eq_error_iff.mp h with h | ⟨ps, -, h⟩
  · rcases bind_eq_error_iff.mp h with htarget | ⟨target, htarget, h⟩
    · exact .inl (foreseen_of_canonical htarget)
    rcases bind_eq_error_iff.mp h with hfiles | ⟨files, hfiles, h⟩
    · exact .inl (foreseen_of_gatherStyleFiles hfiles)
    rcases bind_eq_error_iff.mp h with hsections | ⟨sections, -, h⟩
    · have hbelow : ∀ f ∈ files, ∃ names, target.below? f.directory = some names :=
        fun f hf => exists_below?_directory hname hfiles hf
      exact .inr ⟨target, files, htarget, hfiles,
        StyleFile.refusesName_of_allSectionsFor hbelow hsections⟩
    · split at h
      · cases h
        exact .inl rfl
      · cases h
  · rcases mapError_eq_error_iff.mp h with ⟨fault, -, rfl⟩
    exact .inl rfl

/-- The name of every section in a style file above the path is sound. -/
def SoundAbove (t : Tree) (cwd : Location) (path : Path) (fileName : String) : Prop :=
  ∀ target files, t.canonical cwd path = .ok target →
    t.styleFiles cwd target fileName = .ok files →
      ∀ f ∈ files, ∀ s ∈ f.sheet.sections, Sound s.name

theorem foreseen_of_soundAbove (hname : Path.ofText fileName = ⟨.relative, [name]⟩)
    (hsound : t.SoundAbove cwd path fileName) (h : t.style cwd path fileName = .error e) :
    e.isForeseen = true := by
  rcases foreseen_or_refusesName hname h with hforeseen |
    ⟨target, files, htarget, hfiles, f, hf, s, hs, fault, hfault, rfl⟩
  · exact hforeseen
  · have hline : '\n' ∉ s.name.toList := line_of_mem_styleFiles hfiles hf hs
    rcases Matcher.ofName_of_sound hline (hsound target files htarget hfiles f hf s hs) with
      ⟨m, hm⟩ | ⟨rest, hrest⟩
    · rw [hm] at hfault
      cases hfault
    · rw [hrest] at hfault
      cases hfault
      rfl

theorem style_of_allSectionsFor_error (htarget : t.canonical cwd path = .ok target)
    (hfiles : t.styleFiles cwd target fileName = .ok files)
    (h : StyleFile.allSectionsFor target files = .error e) :
    t.style cwd path fileName = .error e := by
  have hproperties : t.properties cwd path fileName = .error e := by
    apply bind_eq_error_iff.mpr
    refine .inr ⟨target, htarget, bind_eq_error_iff.mpr (.inr ⟨files, hfiles, ?_⟩)⟩
    exact bind_eq_error_iff.mpr (.inl h)
  exact bind_eq_error_iff.mpr (.inl hproperties)

/-- Where every opening brace in the section names has its partner, the error is not
foreseen as soon as one of the names is not sound. -/
theorem not_foreseen_of_not_sound (hname : Path.ofText fileName = ⟨.relative, [name]⟩)
    (htarget : t.canonical cwd path = .ok target)
    (hfiles : t.styleFiles cwd target fileName = .ok files)
    (hmatched : ∀ f ∈ files, ∀ s ∈ f.sheet.sections,
      ¬ HasUnmatched (Glyph.ofText (globOf s.name.toList)))
    {f : StyleFile} (hf : f ∈ files) {s : Section} (hs : s ∈ f.sheet.sections)
    (hunsound : ¬ Sound s.name) :
    ∃ e, t.style cwd path fileName = .error e ∧ e.isForeseen = false := by
  have hbelow : ∀ f ∈ files, ∃ names, target.below? f.directory = some names :=
    fun f hf => exists_below?_directory hname hfiles hf
  cases hsections : StyleFile.allSectionsFor target files with
  | ok sections =>
      have hread := StyleFile.exists_ofName_of_allSectionsFor hsections f hf s hs
      have hline : '\n' ∉ s.name.toList := line_of_mem_styleFiles hfiles hf hs
      exact absurd ((Matcher.ofName_reads_iff hline).mp hread).right hunsound
  | error e =>
      refine ⟨e, style_of_allSectionsFor_error htarget hfiles hsections, ?_⟩
      rcases StyleFile.refusesName_of_allSectionsFor hbelow hsections with
        ⟨g, hg, r, hr, fault, hfault, rfl⟩
      cases fault with
      | unmatchedBrace rest =>
          exact absurd (Matcher.hasUnmatched_of_ofName hfault) (hmatched g hg r hr)
      | tooManyDigits count => rfl
      | descendingRange first last => rfl

end Tree
end FileStyle
