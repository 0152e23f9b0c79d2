import FileStyle.Glob.Pattern
import FileStyle.Proofs.PatternText
import FileStyle.Proofs.Slices
import Mathlib

/-!
# What a section is about

A section name is a list of globs, one for each expansion of its braces, and is about the
paths that one of them spells out slice by slice. A name that floats may leave out the
directories at the start of a path.
-/

namespace FileStyle
namespace Glob

/-! ## Anchoring -/

def withoutRoot : List Char → List Char
  | '/' :: rest => rest
  | name => name

/-- The glob that remains of a name once one separator at its start, and then one double
star with a separator, are dropped. -/
def globOf (name : List Char) : List Char :=
  match withoutRoot name with
  | '*' :: '*' :: '/' :: rest => rest
  | glob => glob

/-- A name floats if it has no separator at all or if a double star was dropped. -/
def Floats (name : List Char) : Prop :=
  '/' ∉ name ∨ ['*', '*', '/'] <+: withoutRoot name

theorem withoutRoot_of_not_mem {name : List Char} (h : '/' ∉ name) :
    withoutRoot name = name := by
  unfold withoutRoot
  split
  · exact absurd List.mem_cons_self h
  · rfl

theorem globOf_of_deep {name rest : List Char}
    (h : withoutRoot name = '*' :: '*' :: '/' :: rest) : globOf name = rest := by
  rw [globOf, h]
  rfl

theorem globOf_of_not_deep {name : List Char}
    (h : ¬ ['*', '*', '/'] <+: withoutRoot name) : globOf name = withoutRoot name := by
  unfold globOf
  split
  · next rest hrest => exact absurd ⟨rest, hrest.symm⟩ h
  · rfl

theorem rooted_eq_withoutRoot (name : List Char) :
    (if name.head? = some '/' then name.tail else name) = withoutRoot name := by
  unfold withoutRoot
  split
  · next hhead =>
      rcases List.head?_eq_some_iff.mp hhead with ⟨rest, hrest⟩
      rw [hrest]
      rfl
  · next hhead =>
      split
      · exact absurd rfl hhead
      · rfl

theorem anchoring_of_deep {name rest : List Char}
    (h : withoutRoot name = '*' :: '*' :: '/' :: rest) : anchoring name = (true, rest) := by
  by_cases hmem : '/' ∈ name
  · rw [anchoring, if_pos hmem, rooted_eq_withoutRoot, h]
    rfl
  · rw [withoutRoot_of_not_mem hmem] at h
    exact absurd (by simp [h]) hmem

theorem anchoring_of_not_deep {name : List Char}
    (h : ¬ ['*', '*', '/'] <+: withoutRoot name) :
    anchoring name = (decide ('/' ∉ name), withoutRoot name) := by
  have hother : ∀ rest, withoutRoot name ≠ '*' :: '*' :: '/' :: rest := by
    intro rest hrest
    exact h ⟨rest, hrest.symm⟩
  by_cases hmem : '/' ∈ name
  · rw [anchoring, if_pos hmem, rooted_eq_withoutRoot]
    split
    next floating glob hpair =>
      cases hpair
      split
      · next rest hrest => exact absurd hrest (hother rest)
      · simp [hmem]
  · rw [anchoring, if_neg hmem]
    rw [withoutRoot_of_not_mem hmem] at hother ⊢
    split
    next floating glob hpair =>
      cases hpair
      split
      · next rest => exact absurd rfl (hother rest)
      · simp [hmem]

theorem anchoring_glob (name : List Char) : (anchoring name).2 = globOf name := by
  by_cases h : ['*', '*', '/'] <+: withoutRoot name
  · rcases h with ⟨rest, hrest⟩
    rw [anchoring_of_deep hrest.symm, globOf_of_deep hrest.symm]
  · rw [anchoring_of_not_deep h, globOf_of_not_deep h]

theorem anchoring_floating (name : List Char) :
    (anchoring name).1 = true ↔ Floats name := by
  by_cases h : ['*', '*', '/'] <+: withoutRoot name
  · rcases h with ⟨rest, hrest⟩
    rw [anchoring_of_deep hrest.symm]
    exact iff_of_true rfl (.inr ⟨rest, hrest⟩)
  · rw [anchoring_of_not_deep h, decide_eq_true_iff, Floats, or_iff_left h]

/-! ## Matchers -/

namespace Matcher

theorem exists_mem_readPatterns {globs : List (List Glyph)} {ps : List Pattern}
    (h : readPatterns globs = .ok ps) (P : Pattern → Prop) :
    (∃ p ∈ ps, P p) ↔ ∃ glob ∈ globs, ∃ p : Pattern, p.SpelledBy (Glyph.toText glob) ∧ P p := by
  induction globs generalizing ps with
  | nil =>
      cases h
      simp
  | cons glob globs ih =>
      rcases bind_eq_ok_iff.mp h with ⟨p, hp, hrest⟩
      rcases bind_eq_ok_iff.mp hrest with ⟨others, hothers, hps⟩
      cases hps
      have hfirst : ∀ q : Pattern, q.SpelledBy (Glyph.toText glob) ↔ q = p := by
        intro q
        rw [← Pattern.read_eq_ok_iff, hp]
        constructor
        · intro heq
          cases heq
          rfl
        · intro heq
          rw [heq]
      simp only [List.exists_mem_cons_iff, ih hothers, hfirst, exists_eq_left]

theorem ofName_eq_ok_iff {name : String} {m : Matcher} :
    ofName name = .ok m ↔
      ∃ globs ps, expand (Glyph.ofText (globOf name.toList)) = .ok globs ∧
        readPatterns globs = .ok ps ∧ m = ⟨(anchoring name.toList).1, ps⟩ := by
  rw [← anchoring_glob]
  constructor
  · intro h
    rcases bind_eq_ok_iff.mp h with ⟨globs, hglobs, hrest⟩
    rcases bind_eq_ok_iff.mp hrest with ⟨ps, hps, hm⟩
    cases hm
    exact ⟨globs, ps, hglobs, hps, rfl⟩
  · intro h
    rcases h with ⟨globs, ps, hglobs, hps, rfl⟩
    exact bind_eq_ok_iff.mpr ⟨globs, hglobs, bind_eq_ok_iff.mpr ⟨ps, hps, rfl⟩⟩

theorem accepts_iff {m : Matcher} {path : String} :
    m.accepts path = true ↔
      ∃ p ∈ m.patterns, ∃ r,
        (r = path.toList ∨
          m.floating = true ∧ ∃ directories, path.toList = directories ++ '/' :: r) ∧
        p.Matches r := by
  rw [accepts, List.any_eq_true]
  apply exists_congr
  intro p
  apply and_congr_right
  intro _
  split
  · next hfloating =>
      rw [Pattern.acceptsBelow_iff]
      constructor
      · intro h
        rcases h with hwhole | ⟨directories, r, hpath, hr⟩
        · exact ⟨path.toList, .inl rfl, hwhole⟩
        · exact ⟨r, .inr ⟨hfloating, directories, hpath⟩, hr⟩
      · intro h
        rcases h with ⟨r, rfl | ⟨-, directories, hpath⟩, hr⟩
        · exact .inl hr
        · exact .inr ⟨directories, r, hpath, hr⟩
  · next hfixed =>
      rw [Pattern.accepts_iff]
      constructor
      · intro h
        exact ⟨path.toList, .inl rfl, h⟩
      · intro h
        rcases h with ⟨r, rfl | ⟨hfloating, -⟩, hr⟩
        · exact hr
        · exact absurd hfloating hfixed

end Matcher

/-! ## Sections -/

/-- A section whose name can be read is about exactly the paths that an expansion of its
glob spells out: the path itself or, if the name floats, what follows a separator in it is
cut into slices that the atoms match one by one. -/
theorem sectionMatches_iff_slices {name : String} {m : Matcher}
    (h : Matcher.ofName name = .ok m) (path : String) :
    ∃ globs, expansions (String.ofList (globOf name.toList)) = .ok globs ∧
      ∃ applies, sectionMatches name path = .ok applies ∧
        (applies = true ↔
          ∃ glob ∈ globs, ∃ r,
            (r = path.toList ∨
              Floats name.toList ∧ ∃ directories, path.toList = directories ++ '/' :: r) ∧
            ∃ p : Pattern, p.SpelledBy glob.toList ∧ p.Matches r) := by
  rcases Matcher.ofName_eq_ok_iff.mp h with ⟨expanded, ps, hexpand, hps, rfl⟩
  refine ⟨expanded.map fun gs => String.ofList (Glyph.toText gs), ?_,
    Matcher.accepts ⟨(anchoring name.toList).1, ps⟩ path, ?_, ?_⟩
  · rw [expansions, String.toList_ofList, hexpand]
    rfl
  · rw [sectionMatches, h]
    rfl
  · rw [Matcher.accepts_iff, Matcher.exists_mem_readPatterns hps]
    rw [← anchoring_floating]
    constructor
    · intro h
      rcases h with ⟨glob, hglob, p, hspelled, r, hr, hmatches⟩
      refine ⟨_, List.mem_map_of_mem hglob, r, hr, p, ?_, hmatches⟩
      rw [String.toList_ofList]
      exact hspelled
    · intro h
      rcases h with ⟨text, htext, r, hr, p, hspelled, hmatches⟩
      rcases List.mem_map.mp htext with ⟨glob, hglob, rfl⟩
      rw [String.toList_ofList] at hspelled
      exact ⟨glob, hglob, p, hspelled, r, hr, hmatches⟩

/-- A name with a dropped double star, a group, a negated class, directories in between,
an escaped star and a bracket that opens no class. -/
theorem sectionMatches_iff_slices_below_directory :
    Matcher.ofName "/**/{s,[!a-c]}/**/\\**.l[" =
        .ok ⟨true, [
          [.literal 's', .deepSeparator, .literal '*', .run, .literal '.', .literal 'l',
            .literal '['],
          [.oneOf ⟨true, [('/', '/'), ('a', 'c')]⟩, .deepSeparator, .literal '*', .run,
            .literal '.', .literal 'l', .literal '[']]⟩ ∧
      sectionMatches "/**/{s,[!a-c]}/**/\\**.l[" "lib/d/x/y/*ab.l[" = .ok true := by
  have hname : Matcher.ofName "/**/{s,[!a-c]}/**/\\**.l[" =
      .ok ⟨true, [
        [.literal 's', .deepSeparator, .literal '*', .run, .literal '.', .literal 'l',
          .literal '['],
        [.oneOf ⟨true, [('/', '/'), ('a', 'c')]⟩, .deepSeparator, .literal '*', .run,
          .literal '.', .literal 'l', .literal '[']]⟩ := by
    cbv
  have hexpand : expansions (String.ofList (globOf "/**/{s,[!a-c]}/**/\\**.l[".toList)) =
      .ok ["s/**/\\**.l[", "[!a-c]/**/\\**.l["] := by
    cbv
  have hspelled : Pattern.read "[!a-c]/**/\\**.l[".toList =
      .ok [.oneOf ⟨true, [('/', '/'), ('a', 'c')]⟩, .deepSeparator, .literal '*', .run,
        .literal '.', .literal 'l', .literal '['] := by
    cbv
  rcases sectionMatches_iff_slices hname "lib/d/x/y/*ab.l[" with
    ⟨globs, hglobs, applies, happlies, hiff⟩
  rw [hexpand] at hglobs
  cases hglobs
  have htrue : applies = true := by
    apply hiff.mpr
    refine ⟨"[!a-c]/**/\\**.l[", by simp, "d/x/y/*ab.l[".toList, ?_, _,
      Pattern.read_eq_ok_iff.mp hspelled, ?_⟩
    · exact .inr ⟨.inr ⟨_, rfl⟩, "lib".toList, rfl⟩
    · exact Pattern.accepts_iff.mp (by decide)
  exact ⟨hname, happlies.trans (congrArg Except.ok htrue)⟩

end Glob
end FileStyle
