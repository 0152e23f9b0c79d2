import FileStyle.Proofs.LineGrammar
import FileStyle.Proofs.PathStyle
import FileStyle.Proofs.RootBarrier
import FileStyle.Proofs.SectionMatch

/-!
# Projects with one section

The name of a star is about every path. So where the nearest style file is a root and has just
this section, its properties are those of every path that the file is about.
-/

namespace FileStyle

/-! ## The star -/

namespace Glob

theorem Matcher.ofName_star : ofName "*" = .ok ⟨true, [[.run]]⟩ := by
  cbv

theorem sectionMatches_star (path : String) : sectionMatches "*" path = .ok true := by
  have hrun : ∀ r : List Char, '/' ∉ r → Pattern.Matches [.run] r := by
    intro r hr
    exact ⟨[r], .cons hr .nil, by simp⟩
  have haccepts : Matcher.accepts ⟨true, [[.run]]⟩ path = true := by
    rw [Matcher.accepts_iff]
    refine ⟨[.run], List.mem_cons_self, ?_⟩
    by_cases hmem : '/' ∈ path.toList
    · rcases Text.exists_cut_of_mem hmem with ⟨directories, r, hpath, hr⟩
      exact ⟨r, .inr ⟨rfl, directories, hpath⟩, hrun r hr⟩
    · exact ⟨_, .inl rfl, hrun _ hmem⟩
  rw [sectionMatches, Matcher.ofName_star]
  show Except.ok (Matcher.accepts ⟨true, [[.run]]⟩ path) = _
  rw [haccepts]

end Glob

/-! ## The nearest style file -/

theorem Settings.ofProperties_ofSections_singleton {s : Section} (h : s.properties.Tidy) :
    ofProperties (Properties.ofSections [s]) = ofProperties s.properties := by
  have hall : ∀ s' ∈ [s], s'.properties.Tidy := List.forall_mem_singleton.mpr h
  have hget : ∀ key, (Properties.ofSections [s]).get? key = s.properties.get? key := by
    intro key
    rw [Properties.get?_ofSections hall, Section.lastValue?_cons]
    rfl
  rw [ofProperties_eq_ofValues (Properties.tidy_ofSections hall), funext hget,
    ofProperties_eq_ofValues h]

namespace Tree

variable {t : Tree} {cwd : Location} {path target place : Path} {nearer farther : List Path}

theorem gatherStyleFiles_of_none (h : ∀ p ∈ nearer, t.contents? cwd p = none)
    (rest : List Path) :
    t.gatherStyleFiles cwd (nearer ++ rest) = t.gatherStyleFiles cwd rest := by
  induction nearer with
  | nil => rfl
  | cons candidate nearer ih =>
      rcases List.forall_mem_cons.mp h with ⟨hnone, hnearer⟩
      rw [List.cons_append, gatherStyleFiles_cons, hnone]
      exact ih hnearer

theorem styleFiles_of_root {bytes : List UInt8} {f : StyleFile} {fileName : String}
    (hcandidates : target.candidates fileName = nearer ++ place :: farther)
    (hnearer : ∀ p ∈ nearer, t.contents? cwd p = none)
    (hbytes : t.contents? cwd place = some (.bytes bytes)) (hread : StyleFile.read place bytes = .ok f)
    (hroot : f.sheet.root = true) : t.styleFiles cwd target fileName = .ok [f] := by
  show t.gatherStyleFiles cwd (target.candidates fileName) = _
  rw [hcandidates, gatherStyleFiles_of_none hnearer, gatherStyleFiles_cons, hbytes,
    Option.elim_some, StyleFile.readContents, hread]
  show (if f.sheet.root then _ else _) = _
  rw [if_pos hroot]
  rfl

/-- If the nearest style file is a root with one section, and the section is about every path,
its properties alone give the style. -/
theorem style_of_root_section {bytes : List UInt8} {f : StyleFile} {s : Section}
    (htarget : t.canonical cwd path = .ok target)
    (hcandidates : target.candidates StyleFile.defaultName = nearer ++ place :: farther)
    (hnearer : ∀ p ∈ nearer, t.contents? cwd p = none)
    (hbytes : t.contents? cwd place = some (.bytes bytes)) (hread : StyleFile.read place bytes = .ok f)
    (hroot : f.sheet.root = true) (hsections : f.sheet.sections = [s]) (hstar : s.name = "*") :
    t.style cwd path StyleFile.defaultName =
      (Style.ofProperties s.properties).mapError .badValue := by
  have hname : Path.ofText StyleFile.defaultName = ⟨.relative, [".editorconfig"]⟩ := by decide
  have hfiles : t.styleFiles cwd target StyleFile.defaultName = .ok [f] :=
    styleFiles_of_root hcandidates hnearer hbytes hread hroot
  have hbelow : ∀ f' ∈ [f], ∃ names, target.below? f'.directory = some names :=
    fun f' hf' => exists_below?_directory hname hfiles hf'
  have hnames : ∀ f' ∈ [f], ∀ s ∈ f'.sheet.sections, ∃ m, Glob.Matcher.ofName s.name = .ok m := by
    simp [hsections, hstar, Glob.Matcher.ofName_star]
  have happlied : StyleFile.appliedSections target [f] = [s] := by
    rcases hbelow f List.mem_cons_self with ⟨names, hnames⟩
    simp [StyleFile.appliedSections, StyleFile.applies, hsections, hstar, hnames,
      Glob.sectionMatches_star]
  have htidy : s.properties.Tidy :=
    (StyleFile.of_read hread).right s (by rw [hsections]; exact List.mem_cons_self)
  have hproperties := properties_eq htarget hfiles hbelow hnames
  rw [happlied, if_neg (List.cons_ne_nil _ _)] at hproperties
  rw [style, hproperties, Style.ofProperties,
    ← Settings.ofProperties_ofSections_singleton htidy]
  rfl

end Tree
end FileStyle
