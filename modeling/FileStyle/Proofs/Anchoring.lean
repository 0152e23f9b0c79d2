import FileStyle.Proofs.NormalForm
import FileStyle.Proofs.ReadableNames

/-!
# Sections and their expansions

Whether a section name floats, and what is dropped from its start, is told by the name
before its braces are expanded. The name is about the paths that one of its expansions is
about when it is anchored as the name is. Taken as a name of its own an expansion may be
anchored otherwise: an alternative may lack the separator that another one has, or start
with what is dropped from a name. Where no expansion is anchored otherwise, and so for every
name without separators, a section means its expansions.
-/

namespace FileStyle
namespace Glob

open Glyph

/-! ## What is dropped from a name -/

/-- The text that is dropped from the start of a name: a separator, a double star with a
separator, both or nothing. -/
def leadOf (name : List Char) : List Char :=
  (if name.head? = some '/' then ['/'] else []) ++
    if ['*', '*', '/'] <+: withoutRoot name then ['*', '*', '/'] else []

theorem toText_map_plain (s : List Char) : toText (s.map plain) = s := by
  simp [toText, List.flatMap_map, chars]

theorem leadOf_append_globOf (name : List Char) : leadOf name ++ globOf name = name := by
  have hdeep : (if ['*', '*', '/'] <+: withoutRoot name then ['*', '*', '/'] else []) ++
      globOf name = withoutRoot name := by
    split
    · next h =>
        rcases h with ⟨rest, hrest⟩
        rw [globOf_of_deep hrest.symm]
        exact hrest
    · next h => rw [globOf_of_not_deep h, List.nil_append]
  rw [leadOf, List.append_assoc, hdeep, ← rooted_eq_withoutRoot]
  split
  · next h =>
      rcases List.head?_eq_some_iff.mp h with ⟨rest, rfl⟩
      rfl
  · rfl

theorem mem_leadOf {name : List Char} {c : Char} (h : c ∈ leadOf name) : c ∈ ['/', '*'] := by
  rcases List.mem_append.mp h with hroot | hdeep
  · split at hroot
    · rw [List.mem_singleton.mp hroot]
      exact List.mem_cons_self
    · cases hroot
  · split at hdeep
    · have hall : ['*', '*', '/'] ⊆ ['/', '*'] := by simp
      exact hall hdeep
    · cases hdeep

theorem leadOf_of_not_mem {name : List Char} (h : '/' ∉ name) : leadOf name = [] := by
  have happend := leadOf_append_globOf name
  rw [globOf_of_not_mem h] at happend
  exact List.append_left_eq_self.mp happend

theorem ofText_eq_leadOf_append (name : List Char) :
    ofText name = (leadOf name).map plain ++ ofText (globOf name) := by
  have hwhole : ∀ g ∈ (leadOf name).map plain, g.IsWhole := by
    intro g hg
    rcases List.mem_map.mp hg with ⟨c, hc, rfl⟩
    have hcases : c = '/' ∨ c = '*' := by simpa using mem_leadOf hc
    rcases hcases with rfl | rfl
    · decide
    · decide
  rw [← ofText_toText_append hwhole, toText_map_plain, leadOf_append_globOf]

theorem expansions_of_globOf {name : String} {es : List (List Glyph)}
    (h : expand (ofText (globOf name.toList)) = .ok es) :
    expansions name = .ok (es.map fun e => String.ofList (leadOf name.toList ++ toText e)) := by
  have hname : expand (ofText name.toList) =
      .ok (es.map ((leadOf name.toList).map plain ++ ·)) := by
    rw [ofText_eq_leadOf_append]
    exact expand_append_of_not_mem (by simp) h
  rw [expansions_eq_ok hname, List.map_map]
  simp only [Function.comp_def, toText_append, toText_map_plain]

/-! ## Names that are read when their expansions are taken as names -/

theorem HasDescent.append_iff {front s : List Char} (h : ∀ c ∈ front, c ∉ ['[', '\\']) :
    HasDescent (front ++ s) ↔ HasDescent s := by
  induction front with
  | nil => rfl
  | cons c front ih =>
      have hall := List.forall_mem_cons.mp h
      rw [List.cons_append, ordinary_iff hall.left, ih hall.right]

theorem leadOf_opens_no_class {name : List Char} : ∀ c ∈ leadOf name, c ∉ ['[', '\\'] := by
  intro c hc
  have hcases : c = '/' ∨ c = '*' := by simpa using mem_leadOf hc
  rcases hcases with rfl | rfl
  · decide
  · decide

theorem hasDescent_globOf_iff (name : List Char) : HasDescent (globOf name) ↔ HasDescent name := by
  rw [← HasDescent.append_iff leadOf_opens_no_class, leadOf_append_globOf]

/-! ## Anchored as another name -/

instance (name : List Char) : Decidable (Floats name) :=
  inferInstanceAs (Decidable (_ ∨ _))

/-- The expansion of a name is about a path when it is anchored as the name is. What is
dropped from the name is dropped from the expansion, and the rest spells out the path or, if
the name floats, what follows a separator in it. -/
def MatchesAs (name glob path : List Char) : Prop :=
  ∃ rest, glob = leadOf name ++ rest ∧ ∃ p : Pattern, p.SpelledBy rest ∧
    ∃ r, (r = path ∨ Floats name ∧ ∃ directories, path = directories ++ '/' :: r) ∧ p.Matches r

structure AnchoredAlike (name other : List Char) : Prop where
  lead : leadOf other = leadOf name
  floats : Floats other ↔ Floats name

theorem anchoredAlike_of_not_mem {name other : List Char} (hname : '/' ∉ name)
    (hother : '/' ∉ other) : AnchoredAlike name other where
  lead := by rw [leadOf_of_not_mem hname, leadOf_of_not_mem hother]
  floats := iff_of_true (.inl hother) (.inl hname)

theorem AnchoredAlike.matchesAs_iff {name other : List Char} (h : AnchoredAlike name other)
    (glob path : List Char) : MatchesAs other glob path ↔ MatchesAs name glob path := by
  simp only [MatchesAs, h.lead, h.floats]

/-! ## Sections -/

theorem exists_expansions_of_ofName {name : String} {m : Matcher}
    (h : Matcher.ofName name = .ok m) (path : String) :
    ∃ globs, expansions name = .ok globs ∧ ∃ applies, sectionMatches name path = .ok applies ∧
      (applies = true ↔
        ∃ glob ∈ globs, MatchesAs name.toList glob.toList path.toList) := by
  rcases Matcher.ofName_eq_ok_iff.mp h with ⟨es, ps, hes, hps, rfl⟩
  have happlies : sectionMatches name path =
      .ok (Matcher.accepts ⟨(anchoring name.toList).1, ps⟩ path) := by
    rw [sectionMatches, h]
    rfl
  refine ⟨_, expansions_of_globOf hes, _, happlies, ?_⟩
  rw [Matcher.accepts_iff, Matcher.exists_mem_readPatterns hps]
  simp only [MatchesAs, ← anchoring_floating]
  constructor
  · rintro ⟨e, he, p, hspelled, hmatches⟩
    refine ⟨_, List.mem_map_of_mem he, toText e, String.toList_ofList, p, hspelled, ?_⟩
    exact hmatches
  · rintro ⟨glob, hglob, rest, hrest, p, hspelled, hmatches⟩
    rcases List.mem_map.mp hglob with ⟨e, he, rfl⟩
    rw [String.toList_ofList] at hrest
    cases List.append_cancel_left hrest
    exact ⟨e, he, p, hspelled, hmatches⟩

theorem exists_ofName_of_mem_expansions {name glob : String} {m : Matcher} {globs : List String}
    (hname : Matcher.ofName name = .ok m) (h : expansions name = .ok globs)
    (hglob : glob ∈ globs) : ∃ own, Matcher.ofName glob = .ok own := by
  have hopen : opening ∉ ofText (globOf glob.toList) := by
    have hwhole := opening_not_mem_of_mem_expansions h hglob
    rw [ofText_eq_leadOf_append] at hwhole
    exact fun hmem => hwhole (List.mem_append_right _ hmem)
  have hdescent : ¬ HasDescent (globOf glob.toList) := by
    rcases Matcher.ofName_eq_ok_iff.mp hname with ⟨es, ps, hes, hps, -⟩
    rw [expansions_of_globOf hes] at h
    cases h
    rcases List.mem_map.mp hglob with ⟨e, he, rfl⟩
    rw [hasDescent_globOf_iff, String.toList_ofList, HasDescent.append_iff leadOf_opens_no_class]
    exact Matcher.readPatterns_reads_iff.mp ⟨ps, hps⟩ e he
  rcases Pattern.reads_iff.mpr hdescent with ⟨p, hp⟩
  rw [Matcher.ofName_of_opening_not_mem hopen, hp]
  exact ⟨_, rfl⟩

/-- A section is about the paths that some expansion of its name is about when it is anchored
as the name is. Every expansion can be read as a name, and is then about the paths that it is
about when it is anchored as itself; so the section means its expansions, taken as names,
where all of them are anchored as the name is, which they are if the name has no separator. -/
theorem sectionMatches_iff_expansion {name : String} {m : Matcher}
    (h : Matcher.ofName name = .ok m) (path : String) :
    ∃ globs, expansions name = .ok globs ∧
      (sectionMatches name path = .ok true ↔
        ∃ glob ∈ globs, MatchesAs name.toList glob.toList path.toList) ∧
      (∀ glob ∈ globs, ∃ applies, sectionMatches glob path = .ok applies ∧
        (applies = true ↔ MatchesAs glob.toList glob.toList path.toList)) ∧
      ((∀ glob ∈ globs, AnchoredAlike name.toList glob.toList) →
        (sectionMatches name path = .ok true ↔
          ∃ glob ∈ globs, sectionMatches glob path = .ok true)) ∧
      ('/' ∉ name.toList → ∀ glob ∈ globs, AnchoredAlike name.toList glob.toList) := by
  rcases exists_expansions_of_ofName h path with ⟨globs, hglobs, applies, happlies, hname⟩
  have hown : ∀ glob ∈ globs, ∃ applies, sectionMatches glob path = .ok applies ∧
      (applies = true ↔ MatchesAs glob.toList glob.toList path.toList) := by
    intro glob hglob
    rcases exists_ofName_of_mem_expansions h hglobs hglob with ⟨own, hown⟩
    rcases exists_expansions_of_ofName hown path with ⟨self, hself, applies, happlies, hiff⟩
    rw [expansions_of_mem_expansions hglobs hglob] at hself
    cases hself
    exact ⟨applies, happlies, hiff.trans (by simp)⟩
  have hsection : sectionMatches name path = .ok true ↔
      ∃ glob ∈ globs, MatchesAs name.toList glob.toList path.toList := by
    rw [happlies, Except.ok.injEq, hname]
  refine ⟨globs, hglobs, hsection, hown, fun halike => ?_, fun hseparator glob hglob => ?_⟩
  · rw [hsection]
    refine exists_congr fun glob => and_congr_right fun hglob => ?_
    rcases hown glob hglob with ⟨applies, happlies, hiff⟩
    rw [happlies, Except.ok.injEq, hiff, (halike glob hglob).matchesAs_iff]
  · exact anchoredAlike_of_not_mem hseparator (separator_not_mem_of_mem_expansions hglobs hglob
      hseparator)

/-- A name with nested groups, all of whose expansions are anchored. -/
theorem sectionMatches_iff_expansion_of_nested :
    expansions "lib/\x7ba,b\x7b1..2\x7d\x7d" = .ok ["lib/a", "lib/b1", "lib/b2"] ∧
      sectionMatches "lib/\x7ba,b\x7b1..2\x7d\x7d" "lib/b2" = .ok true ∧
      ∃ glob ∈ ["lib/a", "lib/b1", "lib/b2"], sectionMatches glob "lib/b2" = .ok true := by
  have hname : Matcher.ofName "lib/\x7ba,b\x7b1..2\x7d\x7d" = .ok ⟨false,
      [[.literal 'l', .literal 'i', .literal 'b', .literal '/', .literal 'a'],
        [.literal 'l', .literal 'i', .literal 'b', .literal '/', .literal 'b', .literal '1'],
        [.literal 'l', .literal 'i', .literal 'b', .literal '/', .literal 'b', .literal '2']]⟩ := by
    cbv
  have hexpand : expansions "lib/\x7ba,b\x7b1..2\x7d\x7d" =
      .ok ["lib/a", "lib/b1", "lib/b2"] := by
    cbv
  have hmatches : sectionMatches "lib/\x7ba,b\x7b1..2\x7d\x7d" "lib/b2" = .ok true := by
    cbv
  rcases sectionMatches_iff_expansion hname "lib/b2" with ⟨globs, hglobs, -, -, hiff, -⟩
  rw [hexpand] at hglobs
  cases hglobs
  have halike : ∀ glob ∈ ["lib/a", "lib/b1", "lib/b2"],
      AnchoredAlike "lib/\x7ba,b\x7b1..2\x7d\x7d".toList glob.toList := by
    intro glob hglob
    have hcases : glob = "lib/a" ∨ glob = "lib/b1" ∨ glob = "lib/b2" := by simpa using hglob
    rcases hcases with rfl | rfl | rfl
    · exact ⟨by decide, by decide⟩
    · exact ⟨by decide, by decide⟩
    · exact ⟨by decide, by decide⟩
  exact ⟨hexpand, hmatches, (hiff halike).mp hmatches⟩

/-- An alternative without a separator beside one with a separator: the name is anchored, and
the alternative taken as a name floats. -/
theorem sectionMatches_of_mixed_alternatives :
    expansions "\x7ba,b/c\x7d" = .ok ["a", "b/c"] ∧
      sectionMatches "\x7ba,b/c\x7d" "x/a" = .ok false ∧
      sectionMatches "a" "x/a" = .ok true := by
  refine ⟨?_, ?_, ?_⟩
  · cbv
  · cbv
  · cbv

end Glob
end FileStyle
