import FileStyle.Glob.Brace

/-!
# Groups and their parts

In balanced text every brace has its partner. The scans for the brace that closes a group
and for the commas between its alternatives pass over balanced text as a whole, whatever
groups it holds, so that they find the parts from which a group is put together.
-/

namespace FileStyle
namespace Glob

open Glyph

/-! ## Balanced text -/

/-- Text in which every brace has its partner. Inside a group commas may stand anywhere;
whether they may stand outside of all groups is told by the first argument. -/
inductive Balanced : Bool → List Glyph → Prop where
  | nil {commas : Bool} : Balanced commas []
  | glyph {commas : Bool} {g : Glyph} {gs : List Glyph} (hopen : g ≠ opening)
      (hclose : g ≠ closing) (hcomma : g = comma → commas = true) (h : Balanced commas gs) :
      Balanced commas (g :: gs)
  | group {commas : Bool} {body gs : List Glyph} (hbody : Balanced true body)
      (h : Balanced commas gs) : Balanced commas (opening :: (body ++ closing :: gs))

def HasUnmatched (gs : List Glyph) : Prop :=
  ∃ before after, gs = before ++ opening :: after ∧
    ¬ ∃ body rest, after = body ++ closing :: rest ∧ Balanced true body

namespace Balanced

variable {commas : Bool} {gs hs : List Glyph}

theorem weaken (h : Balanced commas gs) : Balanced true gs := by
  induction h with
  | nil => exact .nil
  | glyph hopen hclose _ _ ih => exact .glyph hopen hclose (fun _ => rfl) ih
  | group hbody _ _ ih => exact .group hbody ih

theorem of_not_mem (hopen : opening ∉ gs) (hclose : closing ∉ gs) : Balanced true gs := by
  induction gs with
  | nil => exact .nil
  | cons g gs ih =>
      rcases not_or.mp (mt List.mem_cons.mpr hopen) with ⟨hg, hgs⟩
      rcases not_or.mp (mt List.mem_cons.mpr hclose) with ⟨hg', hgs'⟩
      exact .glyph (Ne.symm hg) (Ne.symm hg') (fun _ => rfl) (ih hgs hgs')

theorem append (h : Balanced commas gs) (hrest : Balanced commas hs) :
    Balanced commas (gs ++ hs) := by
  induction h with
  | nil => exact hrest
  | glyph hopen hclose hcomma _ ih => exact .glyph hopen hclose hcomma (ih hrest)
  | @group _ body gs hbody _ _ ih =>
      have hsplit : opening :: (body ++ closing :: gs) ++ hs =
          opening :: (body ++ closing :: (gs ++ hs)) := by
        simp
      rw [hsplit]
      exact .group hbody (ih hrest)

end Balanced

/-! ## Unmatched braces -/

namespace HasUnmatched

variable {commas : Bool} {gs hs : List Glyph}

theorem cons_iff {g : Glyph} :
    HasUnmatched (g :: gs) ↔
      (g = opening ∧ ¬ ∃ body rest, gs = body ++ closing :: rest ∧ Balanced true body) ∨
        HasUnmatched gs := by
  constructor
  · intro h
    rcases h with ⟨before, after, heq, hnone⟩
    cases before with
    | nil =>
        cases heq
        exact .inl ⟨rfl, hnone⟩
    | cons _ before =>
        cases heq
        exact .inr ⟨before, after, rfl, hnone⟩
  · intro h
    rcases h with ⟨rfl, hnone⟩ | ⟨before, after, rfl, hnone⟩
    · exact ⟨[], gs, rfl, hnone⟩
    · exact ⟨g :: before, after, rfl, hnone⟩

theorem of_append (h : HasUnmatched (gs ++ hs)) : HasUnmatched gs ∨ HasUnmatched hs := by
  induction gs with
  | nil => exact .inr h
  | cons g gs ih =>
      rcases cons_iff.mp h with ⟨hg, hnone⟩ | hrest
      · refine .inl (cons_iff.mpr (.inl ⟨hg, ?_⟩))
        intro hclosed
        rcases hclosed with ⟨body, rest, rfl, hbody⟩
        exact hnone ⟨body, rest ++ hs, by simp, hbody⟩
      · rcases ih hrest with hgs | hhs
        · exact .inl (cons_iff.mpr (.inr hgs))
        · exact .inr hhs

theorem append_left (gs : List Glyph) (h : HasUnmatched hs) : HasUnmatched (gs ++ hs) := by
  rcases h with ⟨before, after, rfl, hnone⟩
  exact ⟨gs ++ before, after, by simp, hnone⟩

theorem not_of_not_mem (h : opening ∉ gs) : ¬ HasUnmatched gs := by
  intro hunmatched
  rcases hunmatched with ⟨before, after, rfl, -⟩
  exact h (by simp)

end HasUnmatched

theorem Balanced.not_hasUnmatched {commas : Bool} {gs : List Glyph}
    (h : Balanced commas gs) : ¬ HasUnmatched gs := by
  induction h with
  | nil => exact HasUnmatched.not_of_not_mem (by simp)
  | glyph hopen _ _ _ ih =>
      intro hunmatched
      rcases HasUnmatched.cons_iff.mp hunmatched with ⟨hg, -⟩ | hrest
      · exact hopen hg
      · exact ih hrest
  | @group _ body gs hbody _ ihbody ih =>
      intro hunmatched
      rcases HasUnmatched.cons_iff.mp hunmatched with ⟨-, hnone⟩ | hinside
      · exact hnone ⟨body, gs, rfl, hbody⟩
      · rcases HasUnmatched.of_append hinside with hbody | hclosing
        · exact ihbody hbody
        · rcases HasUnmatched.cons_iff.mp hclosing with ⟨hg, -⟩ | hrest
          · cases hg
          · exact ih hrest

/-! ## The opening brace -/

theorem splitOpening_cons {g : Glyph} (hopen : g ≠ opening) (gs : List Glyph) :
    splitOpening (g :: gs) = (splitOpening gs).map fun p => (g :: p.1, p.2) := by
  rw [splitOpening]
  exact hopen

theorem splitOpening_append {gs : List Glyph} (h : opening ∉ gs) (rest : List Glyph) :
    splitOpening (gs ++ rest) = (splitOpening rest).map fun p => (gs ++ p.1, p.2) := by
  induction gs with
  | nil => simp
  | cons g gs ih =>
      have hg : g ≠ opening := fun heq => h (heq ▸ List.mem_cons_self)
      have hgs : opening ∉ gs := fun hmem => h (List.mem_cons_of_mem g hmem)
      rw [List.cons_append, splitOpening_cons hg, ih hgs, Option.map_map]
      rfl

theorem splitOpening_of_not_mem {gs : List Glyph} (h : opening ∉ gs) :
    splitOpening gs = none := by
  have happend := splitOpening_append h []
  rw [List.append_nil] at happend
  rw [happend]
  rfl

theorem splitOpening_eq_some_iff {gs before rest : List Glyph} :
    splitOpening gs = some (before, rest) ↔
      gs = before ++ opening :: rest ∧ opening ∉ before := by
  constructor
  · intro h
    by_cases hmem : opening ∈ gs
    · rcases List.eq_append_cons_of_mem hmem with ⟨front, back, rfl, hfront⟩
      rw [splitOpening_append hfront] at h
      cases h
      simpa using hfront
    · rw [splitOpening_of_not_mem hmem] at h
      cases h
  · intro h
    rcases h with ⟨rfl, hbefore⟩
    rw [splitOpening_append hbefore]
    simp [splitOpening]

/-! ## The closing brace -/

theorem splitClosing_cons {g : Glyph} (hopen : g ≠ opening) (hclose : g ≠ closing)
    (depth : Nat) (gs : List Glyph) :
    splitClosing depth (g :: gs) =
      (splitClosing depth gs).map fun p => (g :: p.1, p.2) := by
  rw [splitClosing]
  · exact hclose
  · exact hopen

theorem splitClosing_append {commas : Bool} {gs : List Glyph} (h : Balanced commas gs)
    (depth : Nat) (rest : List Glyph) :
    splitClosing depth (gs ++ rest) =
      (splitClosing depth rest).map fun p => (gs ++ p.1, p.2) := by
  induction h generalizing depth rest with
  | nil => simp
  | @glyph _ g gs hopen hclose _ _ ih =>
      rw [List.cons_append, splitClosing_cons hopen hclose, ih, Option.map_map]
      rfl
  | @group _ body gs _ _ ihbody ih =>
      have hsplit : opening :: (body ++ closing :: gs) ++ rest =
          opening :: (body ++ closing :: (gs ++ rest)) := by
        simp
      rw [hsplit, splitClosing, ihbody, splitClosing, ih]
      simp only [Option.map_map]
      congr 1
      funext p
      simp

inductive Closes : Nat → List Glyph → Prop where
  | none {gs : List Glyph} (h : Balanced true gs) : Closes 0 gs
  | one {count : Nat} {gs hs : List Glyph} (h : Balanced true gs) (hrest : Closes count hs) :
      Closes (count + 1) (gs ++ closing :: hs)

namespace Closes

variable {count : Nat} {gs : List Glyph}

theorem cons_glyph {g : Glyph} (hopen : g ≠ opening) (hclose : g ≠ closing)
    (h : Closes count gs) : Closes count (g :: gs) := by
  cases h with
  | none h => exact .none (.glyph hopen hclose (fun _ => rfl) h)
  | one h hrest => exact .one (.glyph hopen hclose (fun _ => rfl) h) hrest

theorem cons_opening (h : Closes (count + 1) gs) : Closes count (opening :: gs) := by
  cases h with
  | @one _ body _ hbody hrest =>
      cases hrest with
      | none h => exact .none (.group hbody h)
      | @one _ next rest h hrest =>
          have hjoin : opening :: (body ++ closing :: (next ++ closing :: rest)) =
              (opening :: (body ++ closing :: next)) ++ closing :: rest := by
            simp
          rw [hjoin]
          exact .one (.group hbody h) hrest

theorem cons_closing (h : Closes count gs) : Closes (count + 1) (closing :: gs) :=
  .one .nil h

end Closes

theorem closes_of_splitClosing {depth : Nat} {gs body after : List Glyph}
    (h : splitClosing depth gs = some (body, after)) :
    gs = body ++ closing :: after ∧ Closes depth body := by
  fun_induction splitClosing depth gs generalizing body after with
  | case1 => cases h
  | case2 rest =>
      cases h
      exact ⟨rfl, .none .nil⟩
  | case3 rest depth ih =>
      rcases Option.map_eq_some_iff.mp h with ⟨⟨inner, tail⟩, hinner, heq⟩
      cases heq
      rcases ih hinner with ⟨rfl, hcloses⟩
      exact ⟨rfl, hcloses.cons_closing⟩
  | case4 depth rest ih =>
      rcases Option.map_eq_some_iff.mp h with ⟨⟨inner, tail⟩, hinner, heq⟩
      cases heq
      rcases ih hinner with ⟨rfl, hcloses⟩
      exact ⟨rfl, hcloses.cons_opening⟩
  | case5 depth g rest hclose hopen ih =>
      rcases Option.map_eq_some_iff.mp h with ⟨⟨inner, tail⟩, hinner, heq⟩
      cases heq
      rcases ih hinner with ⟨rfl, hcloses⟩
      exact ⟨rfl, hcloses.cons_glyph hopen hclose⟩

/-- The brace that closes a group is the first one with balanced text before it. -/
theorem splitClosing_eq_some_iff {gs body after : List Glyph} :
    splitClosing 0 gs = some (body, after) ↔
      gs = body ++ closing :: after ∧ Balanced true body := by
  constructor
  · intro h
    rcases closes_of_splitClosing h with ⟨heq, hcloses⟩
    cases hcloses with
    | none hbody => exact ⟨heq, hbody⟩
  · intro h
    rcases h with ⟨rfl, hbody⟩
    rw [splitClosing_append hbody]
    simp [splitClosing]

theorem splitClosing_eq_none_iff {gs : List Glyph} :
    splitClosing 0 gs = none ↔
      ¬ ∃ body after, gs = body ++ closing :: after ∧ Balanced true body := by
  constructor
  · intro h hclosed
    rcases hclosed with ⟨body, after, hsplit⟩
    rw [splitClosing_eq_some_iff.mpr hsplit] at h
    cases h
  · intro hnone
    cases h : splitClosing 0 gs with
    | none => rfl
    | some p => exact absurd ⟨p.1, p.2, splitClosing_eq_some_iff.mp h⟩ hnone

/-! ## The alternatives -/

theorem alternatives_cons {g : Glyph} (hopen : g ≠ opening) (hclose : g ≠ closing)
    {depth : Nat} (hcomma : g = comma → depth ≠ 0) (gs : List Glyph) :
    alternatives depth (g :: gs) = consFirst g (alternatives depth gs) := by
  by_cases hg : g = comma
  · rw [hg, alternatives, if_neg (hcomma hg)]
  · rw [alternatives]
    · exact hg
    · exact hopen
    · exact hclose

theorem alternatives_append {commas : Bool} {gs : List Glyph} (h : Balanced commas gs)
    {depth : Nat} (hdepth : commas = true → depth ≠ 0) (rest : List Glyph) :
    alternatives depth (gs ++ rest) = gs.foldr consFirst (alternatives depth rest) := by
  induction h generalizing depth rest with
  | nil => rfl
  | glyph hopen hclose hcomma _ ih =>
      rw [List.cons_append, List.foldr_cons, ← ih hdepth]
      exact alternatives_cons hopen hclose (fun hg => hdepth (hcomma hg)) _
  | @group commas body gs _ _ ihbody ih =>
      have hsplit : opening :: (body ++ closing :: gs) ++ rest =
          opening :: (body ++ closing :: (gs ++ rest)) := by
        simp
      have hdeeper : true = true → depth + 1 ≠ 0 := fun _ => Nat.succ_ne_zero depth
      rw [hsplit, alternatives, ihbody hdeeper, alternatives, Nat.add_sub_cancel, ih hdepth]
      simp

theorem foldr_consFirst (gs first : List Glyph) (others : List (List Glyph)) :
    gs.foldr consFirst (first :: others) = (gs ++ first) :: others := by
  induction gs with
  | nil => rfl
  | cons g gs ih => rw [List.foldr_cons, ih, consFirst, List.cons_append]

theorem alternatives_intercalate {part : List Glyph} {parts : List (List Glyph)}
    (hpart : Balanced false part) (hparts : ∀ other ∈ parts, Balanced false other) :
    alternatives 0 ([comma].intercalate (part :: parts)) = part :: parts := by
  have hcut : ∀ rest, alternatives 0 (part ++ rest) =
      part.foldr consFirst (alternatives 0 rest) := by
    intro rest
    exact alternatives_append hpart (by simp) rest
  induction parts generalizing part with
  | nil =>
      have hnil := hcut []
      rw [List.append_nil, alternatives, foldr_consFirst, List.append_nil] at hnil
      rw [List.intercalate_singleton, hnil]
  | cons next parts ih =>
      have hnext := List.forall_mem_cons.mp hparts
      have hrest : alternatives 0 ([comma].intercalate (next :: parts)) = next :: parts := by
        apply ih hnext.left hnext.right
        intro rest
        exact alternatives_append hnext.left (by simp) rest
      rw [List.intercalate_cons_cons, List.append_assoc, hcut, List.singleton_append,
        alternatives, if_pos rfl, hrest, foldr_consFirst, List.append_nil]

theorem balanced_intercalate {parts : List (List Glyph)}
    (h : ∀ part ∈ parts, Balanced false part) : Balanced true ([comma].intercalate parts) := by
  induction parts with
  | nil => exact .nil
  | cons part parts ih =>
      have hall := List.forall_mem_cons.mp h
      cases parts with
      | nil =>
          rw [List.intercalate_singleton]
          exact hall.left.weaken
      | cons next parts =>
          rw [List.intercalate_cons_cons, List.append_assoc]
          have hcomma : Balanced true ([comma] ++ [comma].intercalate (next :: parts)) :=
            .glyph (by decide) (by decide) (fun _ => rfl) (ih hall.right)
          exact hall.left.weaken.append hcomma

theorem slice_intercalate {part : List Glyph} {parts : List (List Glyph)}
    (h : part ∈ parts) : part <:+: [comma].intercalate parts := by
  induction parts with
  | nil => cases h
  | cons first parts ih =>
      cases parts with
      | nil =>
          rw [List.intercalate_singleton]
          cases List.mem_singleton.mp h
          exact List.infix_rfl
      | cons next parts =>
          rw [List.intercalate_cons_cons, List.append_assoc]
          rcases List.mem_cons.mp h with rfl | hrest
          · exact (List.prefix_append _ _).isInfix
          · have hsuffix := List.suffix_append (first ++ [comma])
              ([comma].intercalate (next :: parts))
            rw [List.append_assoc] at hsuffix
            exact (ih hrest).trans hsuffix.isInfix

theorem exists_parts {commas : Bool} {body : List Glyph} (h : Balanced commas body) :
    ∃ part parts, body = [comma].intercalate (part :: parts) ∧ Balanced false part ∧
      ∀ other ∈ parts, Balanced false other := by
  induction h with
  | nil => exact ⟨[], [], rfl, .nil, by simp⟩
  | @glyph _ g gs hopen hclose _ _ ih =>
      rcases ih with ⟨part, parts, rfl, hpart, hparts⟩
      by_cases hg : g = comma
      · refine ⟨[], part :: parts, ?_, .nil, List.forall_mem_cons.mpr ⟨hpart, hparts⟩⟩
        rw [List.intercalate_cons_cons, hg]
        rfl
      · refine ⟨g :: part, parts, ?_, .glyph hopen hclose (absurd · hg) hpart, hparts⟩
        cases parts with
        | nil => simp
        | cons next parts => simp [List.intercalate_cons_cons]
  | @group _ body gs hbody _ _ ih =>
      rcases ih with ⟨part, parts, rfl, hpart, hparts⟩
      refine ⟨opening :: (body ++ closing :: part), parts, ?_, .group hbody hpart, hparts⟩
      cases parts with
      | nil => simp
      | cons next parts => simp [List.intercalate_cons_cons]

theorem alternatives_of_balanced {body : List Glyph} (h : Balanced true body) :
    [comma].intercalate (alternatives 0 body) = body := by
  rcases exists_parts h with ⟨first, others, rfl, hfirst, hothers⟩
  rw [alternatives_intercalate hfirst hothers]

end Glob
end FileStyle
