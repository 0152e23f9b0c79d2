import FileStyle.Proofs.SheetKeys
import Mathlib.Data.List.Induction

/-!
# Merged properties

The properties of a path are merged from all sections that apply to it, the nearer file
and the later section overriding. So the value of a key is that of the last section that
has the key, whatever the earlier ones say.
-/

namespace FileStyle

/-! ## Merging -/

def Section.lastValue? (sections : List Section) (key : String) : Option String :=
  sections.reverse.findSome? (·.properties.get? key)

def Section.keys (sections : List Section) : List String :=
  (sections.flatMap fun s => s.properties.map (·.1)).eraseDups

theorem Section.lastValue?_cons (s : Section) (sections : List Section) (key : String) :
    lastValue? (s :: sections) key = (lastValue? sections key).or (s.properties.get? key) := by
  rw [lastValue?, List.reverse_cons, List.findSome?_append, lastValue?]
  simp

namespace Properties

theorem get?_cons (k v : String) (ps : Properties) (key : String) :
    get? ((k, v) :: ps) key = if k = key then some v else ps.get? key := by
  by_cases h : k = key
  · simp [get?, h]
  · simp [get?, h]

theorem get?_of_not_mem {ps : Properties} {key : String} (h : key ∉ ps.map (·.1)) :
    ps.get? key = none := by
  have hnone : ps.find? (·.1 = key) = none := by
    apply List.find?_eq_none.mpr
    intro pair hpair
    have hne : pair.1 ≠ key := fun heq => h (heq ▸ List.mem_map_of_mem hpair)
    simpa using hne
  rw [get?, hnone]
  rfl

theorem get?_putAll {pairs : Properties} (h : (pairs.map (·.1)).Nodup) (ps : Properties)
    (key : String) : (ps.putAll pairs).get? key = (pairs.get? key).or (ps.get? key) := by
  induction pairs generalizing ps with
  | nil => rfl
  | cons pair pairs ih =>
      rcases pair with ⟨k, v⟩
      rcases List.nodup_cons.mp h with ⟨hfresh, hrest⟩
      show ((ps.put k v).putAll pairs).get? key = _
      rw [ih hrest, get?_put, get?_cons]
      by_cases hkey : k = key
      · rw [← hkey, get?_of_not_mem hfresh]
        simp
      · rw [if_neg (Ne.symm hkey), if_neg hkey]

theorem eraseDups_append_singleton (keys : List String) (key : String) :
    (keys ++ [key]).eraseDups =
      if key ∈ keys then keys.eraseDups else keys.eraseDups ++ [key] := by
  rw [List.eraseDups_append, List.removeAll]
  by_cases hmem : key ∈ keys
  · simp [hmem]
  · simp [hmem, List.eraseDups_cons]

theorem ofList_append_singleton (pairs : List (String × String)) (pair : String × String) :
    ofList (pairs ++ [pair]) = (ofList pairs).put pair.1 pair.2 := by
  rw [ofList, putAll, List.foldl_append]
  rfl

theorem keys_ofList (pairs : List (String × String)) :
    (ofList pairs).map (·.1) = (pairs.map (·.1)).eraseDups := by
  induction pairs using List.reverseRecOn with
  | nil => rfl
  | append_singleton pairs pair ih =>
      rw [ofList_append_singleton, keys_put, ih, List.map_append, List.map_singleton,
        eraseDups_append_singleton]
      simp only [List.mem_eraseDups]

theorem ofSections_eq_ofList (sections : List Section) :
    ofSections sections = ofList (sections.flatMap (·.properties)) := by
  rw [ofSections, ofList, putAll, List.foldl_flatMap]
  rfl

theorem keys_ofSections (sections : List Section) :
    (ofSections sections).map (·.1) = Section.keys sections := by
  rw [ofSections_eq_ofList, keys_ofList, List.map_flatMap, Section.keys]

theorem get?_ofSections {sections : List Section} (h : ∀ s ∈ sections, s.properties.Tidy)
    (key : String) : (ofSections sections).get? key = Section.lastValue? sections key := by
  have hfrom : ∀ ps : Properties,
      (sections.foldl (fun ps s => ps.putAll s.properties) ps).get? key =
        (Section.lastValue? sections key).or (ps.get? key) := by
    induction sections with
    | nil =>
        intro ps
        rfl
    | cons s sections ih =>
        have hall := List.forall_mem_cons.mp h
        intro ps
        rw [List.foldl_cons, ih hall.right, get?_putAll hall.left.nodup,
          Section.lastValue?_cons, Option.or_assoc]
  rw [ofSections, hfrom []]
  simp [get?]

theorem tidy_ofSections {sections : List Section} (h : ∀ s ∈ sections, s.properties.Tidy) :
    (ofSections sections).Tidy := by
  induction sections using List.reverseRecOn with
  | nil => exact .nil
  | append_singleton sections s ih =>
      rcases List.forall_mem_append.mp h with ⟨hsections, hs⟩
      rw [ofSections, List.foldl_append]
      exact (ih hsections).putAll (hs s List.mem_cons_self)

/-- Properties that several sections merge to. Each key is in lower case, and its value is
that of the last section with the key. -/
structure MergedFrom (sections : List Section) (ps : Properties) : Prop where
  keys : ps.map (·.1) = Section.keys sections
  lowercase : ∀ key ∈ ps.map (·.1), Text.lowercase key.toList = key.toList
  get? : ∀ key, ps.get? key = Section.lastValue? sections key

theorem mergedFrom_ofSections {sections : List Section}
    (h : ∀ s ∈ sections, s.properties.Tidy) : MergedFrom sections (ofSections sections) where
  keys := keys_ofSections sections
  lowercase := fun key hkey => lowercase_of_normalize ((tidy_ofSections h).normal key hkey)
  get? := get?_ofSections h

end Properties

/-! ## The sections that apply -/

namespace StyleFile

def applies (f : StyleFile) (target : Path) (s : Section) : Bool :=
  match target.below? f.directory with
  | none => false
  | some names => Glob.sectionMatches s.name (Path.text ⟨.relative, names⟩) = .ok true

/-- The sections that apply to the target, from the farthest to the nearest file and in
each file in order. The files are given nearest first. -/
def appliedSections (target : Path) (files : List StyleFile) : List Section :=
  files.reverse.flatMap fun f => f.sheet.sections.filter (f.applies target)

variable {target : Path} {f : StyleFile} {files : List StyleFile}

theorem applicable_eq_ok {path : String} {sections : List Section}
    (h : ∀ s ∈ sections, ∃ m, Glob.Matcher.ofName s.name = .ok m) :
    applicable path sections =
      .ok (sections.filter fun s => Glob.sectionMatches s.name path = .ok true) := by
  induction sections with
  | nil => rfl
  | cons s sections ih =>
      have hall := List.forall_mem_cons.mp h
      rcases hall.left with ⟨m, hm⟩
      have hmatches : Glob.sectionMatches s.name path = .ok (m.accepts path) := by
        rw [Glob.sectionMatches, hm]
        rfl
      rw [applicable, hmatches, ih hall.right, List.filter_cons, hmatches]
      cases m.accepts path with
      | false => rfl
      | true => rfl

theorem sectionsFor_eq_ok (hbelow : ∃ names, target.below? f.directory = some names)
    (hnames : ∀ s ∈ f.sheet.sections, ∃ m, Glob.Matcher.ofName s.name = .ok m) :
    f.sectionsFor target = .ok (f.sheet.sections.filter (f.applies target)) := by
  rcases hbelow with ⟨names, hbelow⟩
  have happlies : f.applies target = fun s =>
      decide (Glob.sectionMatches s.name (Path.text ⟨.relative, names⟩) = .ok true) := by
    funext s
    rw [applies, hbelow]
  rw [sectionsFor, hbelow, happlies]
  exact mapError_eq_ok_iff.mpr (applicable_eq_ok hnames)

theorem allSectionsFor_eq_ok
    (hbelow : ∀ f ∈ files, ∃ names, target.below? f.directory = some names)
    (hnames : ∀ f ∈ files, ∀ s ∈ f.sheet.sections, ∃ m, Glob.Matcher.ofName s.name = .ok m) :
    allSectionsFor target files = .ok (appliedSections target files) := by
  induction files with
  | nil => rfl
  | cons f files ih =>
      have hbelow' := List.forall_mem_cons.mp hbelow
      have hnames' := List.forall_mem_cons.mp hnames
      rw [allSectionsFor, ih hbelow'.right hnames'.right,
        sectionsFor_eq_ok hbelow'.left hnames'.left]
      simp only [appliedSections, List.reverse_cons, List.flatMap_append, List.flatMap_singleton]
      rfl

theorem exists_of_mem_appliedSections {s : Section} (h : s ∈ appliedSections target files) :
    ∃ f ∈ files, s ∈ f.sheet.sections := by
  rcases List.mem_flatMap.mp h with ⟨f, hf, hs⟩
  exact ⟨f, List.mem_reverse.mp hf, (List.mem_filter.mp hs).left⟩

end StyleFile

namespace Tree

theorem properties_eq {t : Tree} {cwd : Location} {path target : Path} {fileName : String}
    {files : List StyleFile} (htarget : t.canonical cwd path = .ok target)
    (hfiles : t.styleFiles cwd target fileName = .ok files)
    (hbelow : ∀ f ∈ files, ∃ names, target.below? f.directory = some names)
    (hnames : ∀ f ∈ files, ∀ s ∈ f.sheet.sections, ∃ m, Glob.Matcher.ofName s.name = .ok m) :
    t.properties cwd path fileName =
      if StyleFile.appliedSections target files = [] then
        .error (.noSection path)
      else
        .ok (Properties.ofSections (StyleFile.appliedSections target files)) := by
  rw [properties, htarget]
  show (t.styleFiles cwd target fileName >>= _) = _
  rw [hfiles]
  show (StyleFile.allSectionsFor target files >>= _) = _
  rw [StyleFile.allSectionsFor_eq_ok hbelow hnames]
  cases StyleFile.appliedSections target files with
  | nil => rfl
  | cons s sections => rfl

end Tree
end FileStyle
