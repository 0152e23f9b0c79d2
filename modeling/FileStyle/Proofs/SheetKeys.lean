import FileStyle.Proofs.LowerCase
import FileStyle.Proofs.Outcome
import FileStyle.Resolve

/-!
# The keys of a style file

Every section that a style file gives has tidy properties: no key occurs twice, and each
is in the form in which keys are compared. Each line of a file preserves this, and so does
the search through the directories.
-/

namespace FileStyle

/-! ## Tidy properties -/

theorem lowercase_of_normalize {key : String} (h : normalize key = key) :
    Text.lowercase key.toList = key.toList := by
  have hlist : Text.lowercase (Text.trim key.toList) = key.toList := by
    rw [normalize] at h
    rw [← String.toList_ofList (l := Text.lowercase _), h]
  rw [← hlist, Text.lowercase_lowercase]

namespace Properties

structure Tidy (ps : Properties) : Prop where
  nodup : (ps.map (·.1)).Nodup
  normal : ∀ key ∈ ps.map (·.1), normalize key = key

namespace Tidy

variable {ps : Properties} {key : String}

theorem nil : Tidy [] :=
  ⟨List.nodup_nil, fun _ hmem => absurd hmem List.not_mem_nil⟩

theorem put (h : ps.Tidy) (hkey : normalize key = key) (value : String) :
    (ps.put key value).Tidy := by
  by_cases hmem : key ∈ ps.map (·.1)
  · constructor
    · rw [keys_put, if_pos hmem]
      exact h.nodup
    · rw [keys_put, if_pos hmem]
      exact h.normal
  · constructor
    · rw [keys_put, if_neg hmem]
      have hapart : ∀ other ∈ ps.map (·.1), ∀ new ∈ [key], other ≠ new := by
        intro other hother new hnew heq
        rw [heq, List.mem_singleton.mp hnew] at hother
        exact hmem hother
      exact List.nodup_append.mpr ⟨h.nodup, by simp, hapart⟩
    · rw [keys_put, if_neg hmem]
      intro other hother
      rcases List.mem_append.mp hother with hold | hnew
      · exact h.normal other hold
      · rw [List.mem_singleton.mp hnew]
        exact hkey

theorem putAll {pairs : Properties} (h : ps.Tidy) (hpairs : pairs.Tidy) :
    (ps.putAll pairs).Tidy := by
  have hnormal : ∀ pair ∈ pairs, normalize pair.1 = pair.1 := by
    intro pair hpair
    exact hpairs.normal _ (List.mem_map_of_mem hpair)
  clear hpairs
  induction pairs generalizing ps with
  | nil => exact h
  | cons pair pairs ih =>
      have hall := List.forall_mem_cons.mp hnormal
      exact ih (h.put hall.left pair.2) hall.right

end Tidy
end Properties

/-! ## Lines and files -/

theorem Line.normalize_of_read {s : List Char} {key value : String}
    (h : Line.read s = .ok (.pair key value)) : normalize key = key := by
  have hpair : ∀ t : List Char, Line.readPair t = .ok (.pair key value) →
      ∃ u, key = String.ofList (Text.lowercase (Text.trim u)) := by
    intro t ht
    unfold readPair at ht
    split at ht
    · cases ht
    · dsimp only at ht
      split at ht
      · cases ht
      · cases ht
        exact ⟨_, rfl⟩
  have hread : Line.readPair s = .ok (.pair key value) := by
    unfold read at h
    split at h
    · cases h
    · next c rest =>
        split at h
        · cases h
        · split at h
          · unfold readHeader at h
            split at h
            · cases h
            · cases h
          · exact h
  rcases hpair s hread with ⟨u, rfl⟩
  rw [normalize, String.toList_ofList, Text.lowercase_trim_lowercase_trim]

namespace StyleSheet

def Tidy (sheet : StyleSheet) : Prop :=
  ∀ s ∈ sheet.sections, s.properties.Tidy

theorem Tidy.addLine {sheet : StyleSheet} (h : sheet.Tidy) (number : Nat) {line : Line}
    (hline : ∀ key value, line = .pair key value → normalize key = key) :
    (sheet.addLine number line).Tidy := by
  cases line with
  | ignored => exact h
  | header name => exact List.forall_mem_cons.mpr ⟨.nil, h⟩
  | pair key value =>
      simp only [StyleSheet.addLine]
      split
      · exact h
      · split
        · exact h
        · next current earlier hsections =>
            unfold Tidy at h
            rw [hsections] at h
            have hall := List.forall_mem_cons.mp h
            exact List.forall_mem_cons.mpr
              ⟨hall.left.put (hline key value rfl) value, hall.right⟩

theorem Tidy.addLines {sheet result : StyleSheet} {number : Nat} {lines : List (List Char)}
    (h : sheet.Tidy) (hlines : sheet.addLines number lines = .ok result) : result.Tidy := by
  induction lines generalizing sheet number with
  | nil =>
      cases hlines
      exact h
  | cons raw lines ih =>
      unfold StyleSheet.addLines at hlines
      split at hlines
      · cases hlines
      · next line hline =>
          apply ih _ hlines
          apply h.addLine
          intro key value heq
          rw [heq] at hline
          exact Line.normalize_of_read hline

theorem tidy_of_parse {text : List Char} {sheet : StyleSheet} (h : parse text = .ok sheet) :
    sheet.Tidy := by
  rcases map_eq_ok_iff.mp h with ⟨held, hheld, rfl⟩
  have htidy : held.Tidy := Tidy.addLines (fun _ hs => absurd hs List.not_mem_nil) hheld
  intro s hs
  exact htidy s (List.mem_reverse.mp hs)

end StyleSheet

theorem StyleFile.of_read {path : Path} {bytes : List UInt8} {f : StyleFile}
    (h : StyleFile.read path bytes = .ok f) : f.path = path ∧ f.sheet.Tidy := by
  unfold read at h
  split at h
  · cases h
  · next text _ =>
      split at h
      · cases h
      · next sheet hsheet =>
          cases h
          exact ⟨rfl, StyleSheet.tidy_of_parse hsheet⟩

theorem StyleFile.exists_read_of_readContents {path : Path} {contents : Contents}
    {f : StyleFile} (h : StyleFile.readContents path contents = .ok f) :
    ∃ bytes, StyleFile.read path bytes = .ok f := by
  cases contents with
  | bytes bytes => exact ⟨bytes, h⟩
  | locked => cases h

/-! ## The search -/

namespace Tree

variable {t : Tree} {cwd : Location} {target : Path} {fileName : String}
  {files : List StyleFile} {f : StyleFile}

theorem exists_read_of_mem_gatherStyleFiles {candidates : List Path}
    (h : t.gatherStyleFiles cwd candidates = .ok files) (hf : f ∈ files) :
    ∃ candidate ∈ candidates, ∃ bytes, StyleFile.read candidate bytes = .ok f := by
  induction candidates generalizing files with
  | nil =>
      cases h
      cases hf
  | cons candidate candidates ih =>
      have hlater : (∃ other ∈ candidates, ∃ bytes, StyleFile.read other bytes = .ok f) →
          ∃ other ∈ candidate :: candidates, ∃ bytes, StyleFile.read other bytes = .ok f := by
        intro h
        rcases h with ⟨other, hother, hread⟩
        exact ⟨other, List.mem_cons_of_mem _ hother, hread⟩
      unfold gatherStyleFiles at h
      split at h
      · exact hlater (ih h hf)
      · next contents _ =>
          rcases bind_eq_ok_iff.mp h with ⟨first, hcontents, h⟩
          rcases StyleFile.exists_read_of_readContents hcontents with ⟨bytes, hfirst⟩
          split at h
          · cases h
            rw [List.mem_singleton.mp hf]
            exact ⟨candidate, List.mem_cons_self, bytes, hfirst⟩
          · rcases bind_eq_ok_iff.mp h with ⟨others, hothers, h⟩
            cases h
            rcases List.mem_cons.mp hf with rfl | hmem
            · exact ⟨candidate, List.mem_cons_self, bytes, hfirst⟩
            · exact hlater (ih hothers hmem)

theorem of_mem_gatherStyleFiles {candidates : List Path}
    (h : t.gatherStyleFiles cwd candidates = .ok files) (hf : f ∈ files) :
    f.path ∈ candidates ∧ f.sheet.Tidy := by
  rcases exists_read_of_mem_gatherStyleFiles h hf with ⟨candidate, hcandidate, bytes, hread⟩
  rcases StyleFile.of_read hread with ⟨rfl, htidy⟩
  exact ⟨hcandidate, htidy⟩

theorem tidy_of_styleFiles (h : t.styleFiles cwd target fileName = .ok files) (hf : f ∈ files) :
    f.sheet.Tidy :=
  (of_mem_gatherStyleFiles h hf).right

theorem exists_below?_directory {name : String}
    (hname : Path.ofText fileName = ⟨.relative, [name]⟩)
    (h : t.styleFiles cwd target fileName = .ok files) (hf : f ∈ files) :
    ∃ names, target.below? f.directory = some names := by
  have hpath := (of_mem_gatherStyleFiles h hf).left
  rcases List.mem_map.mp hpath with ⟨directory, hdirectory, heq⟩
  rcases List.mem_map.mp hdirectory with ⟨n, -, rfl⟩
  have hparent : f.directory = { target with names := target.names.take n } := by
    rw [StyleFile.directory, ← heq, hname, Path.append, if_pos rfl, Path.parent]
    simp
  rw [hparent, Path.below?, if_pos ⟨rfl, List.take_prefix n target.names⟩]
  exact ⟨_, rfl⟩

end Tree
end FileStyle
