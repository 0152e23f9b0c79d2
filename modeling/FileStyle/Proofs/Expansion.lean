import FileStyle.Proofs.Groups
import FileStyle.Proofs.IntegerRange
import FileStyle.Proofs.Outcome
import Mathlib

/-!
# What braces stand for

The expansions of a text are told by its structure: text without groups stands for itself,
two texts side by side for every expansion of the one with every expansion of the other,
and a group for its alternatives, for the integers of its range, or for its body between
literal braces. Expansion by scanning gives just these texts in this order, and fails on
the texts that have an opening brace without a partner.
-/

namespace FileStyle
namespace Glob

open Glyph

/-! ## The structure of expansions -/

inductive Expands : List Glyph → List (List Glyph) → Prop where
  | text {gs : List Glyph} (h : opening ∉ gs) : Expands gs [gs]
  | append {xs ys : List Glyph} {es fs : List (List Glyph)} (hx : Expands xs es)
      (hy : Expands ys fs) : Expands (xs ++ ys) (es.flatMap fun e => fs.map fun f => e ++ f)
  | alternatives {parts : List (List Glyph)} {texts : List Glyph → List (List Glyph)}
      (hparts : 2 ≤ parts.length) (hbalanced : ∀ part ∈ parts, Balanced false part)
      (h : ∀ part ∈ parts, Expands part (texts part)) :
      Expands (opening :: ([comma].intercalate parts ++ [closing])) (parts.flatMap texts)
  | range {body : List Glyph} {first last : Bound} {a b : Int}
      (hbody : IsRange first last (toText body)) (hfirst : first.value = .ok a)
      (hlast : last.value = .ok b) :
      Expands (opening :: (body ++ [closing]))
        ((Int.range (min a b) (max a b + 1)).map fun n => (toString n).toList.map .plain)
  | literal {body : List Glyph} {es : List (List Glyph)} (hbody : Balanced false body)
      (hrange : ∀ first last, ¬ IsRange first last (toText body)) (h : Expands body es) :
      Expands (opening :: (body ++ [closing]))
        (es.map fun e => escaped '\x7b' :: (e ++ [escaped '\x7d']))

/-- Every range in the text has bounds that are not too long to be read. -/
def RangesFit (gs : List Glyph) : Prop :=
  ∀ before body after first last, gs = before ++ opening :: (body ++ closing :: after) →
    IsRange first last (toText body) →
      first.digits.length ≤ Text.maxDigits ∧ last.digits.length ≤ Text.maxDigits

theorem RangesFit.of_slice {gs hs : List Glyph} (h : RangesFit gs) (hslice : hs <:+: gs) :
    RangesFit hs := by
  rcases hslice with ⟨front, back, rfl⟩
  intro before body after first last heq hrange
  refine h (front ++ before) body (after ++ back) first last ?_ hrange
  rw [heq]
  simp

theorem Bound.exists_value {b : Bound} (h : b.digits.length ≤ Text.maxDigits) :
    ∃ n, b.value = .ok n := by
  rw [value, if_pos h]
  exact ⟨_, rfl⟩

theorem Bound.SpelledBy.length_le {b : Bound} {s : List Char} (h : b.SpelledBy s) :
    b.digits.length ≤ s.length := by
  rcases h with ⟨sign, -, digits, rfl, -, hdigits, -⟩
  have hlength : digits.length = b.digits.length := by
    simpa using congrArg List.length hdigits
  rw [List.length_append, ← hlength]
  exact Nat.le_add_left _ _

theorem RangesFit.of_length_le {gs : List Glyph} (h : (toText gs).length ≤ Text.maxDigits) :
    RangesFit gs := by
  intro before body after first last heq hrange
  rcases hrange with ⟨t, u, hbody, hfirst, hlast⟩
  have hlength : t.length + u.length ≤ (toText gs).length := by
    rw [heq, toText_append, toText_cons, toText_append, hbody]
    simp only [List.length_append, List.length_cons]
    omega
  have htotal : t.length + u.length ≤ Text.maxDigits := hlength.trans h
  constructor
  · exact hfirst.length_le.trans ((Nat.le_add_right _ _).trans htotal)
  · exact hlast.length_le.trans ((Nat.le_add_left _ _).trans htotal)

/-! ## Products -/

theorem product_nil_right (heads : List (List Glyph)) : product heads [[]] = heads := by
  simp [product]

theorem map_append_product (before : List Glyph) (heads tails : List (List Glyph)) :
    (product heads tails).map (before ++ ·) = product (heads.map (before ++ ·)) tails := by
  simp only [product, List.map_flatMap, List.flatMap_map, List.map_map, Function.comp_def,
    List.append_assoc]

theorem product_assoc (xs ys zs : List (List Glyph)) :
    product (product xs ys) zs = product xs (product ys zs) := by
  simp only [product, List.flatMap_assoc, List.flatMap_map, List.map_flatMap, List.map_map,
    Function.comp_def, List.append_assoc]

/-! ## Expansion by scanning -/

theorem expand_of_not_mem {gs : List Glyph} (h : opening ∉ gs) : expand gs = .ok [gs] := by
  rw [expand]
  split
  · rfl
  · next before rest hopen =>
      rw [splitOpening_of_not_mem h] at hopen
      cases hopen

theorem expand_of_unmatched {before rest : List Glyph} (hbefore : opening ∉ before)
    (hclose : splitClosing 0 rest = none) :
    expand (before ++ opening :: rest) =
      .error (.unmatchedBrace (String.ofList (toText (before ++ opening :: rest)))) := by
  have hopen : splitOpening (before ++ opening :: rest) = some (before, rest) :=
    splitOpening_eq_some_iff.mpr ⟨rfl, hbefore⟩
  rw [expand]
  split
  · next hnone =>
      rw [hopen] at hnone
      cases hnone
  · next before' rest' hsome =>
      rw [hopen] at hsome
      cases hsome
      split
      · rfl
      · next body after hsome =>
          rw [hclose] at hsome
          cases hsome

/-- What follows the first group is expanded before what is in it. -/
theorem expand_group {before body : List Glyph} (hbefore : opening ∉ before)
    (hbody : Balanced true body) (after : List Glyph) :
    expand (before ++ opening :: (body ++ closing :: after)) = (do
      let parts ← choices body
      let tails ← expand after
      let heads ← expandEach parts
      return (product heads tails).map (before ++ ·)) := by
  have hopen : splitOpening (before ++ opening :: (body ++ closing :: after)) =
      some (before, body ++ closing :: after) :=
    splitOpening_eq_some_iff.mpr ⟨rfl, hbefore⟩
  have hclose : splitClosing 0 (body ++ closing :: after) = some (body, after) :=
    splitClosing_eq_some_iff.mpr ⟨rfl, hbody⟩
  rw [expand]
  split
  · next hnone =>
      rw [hopen] at hnone
      cases hnone
  next before' rest hsome =>
  rw [hopen] at hsome
  cases hsome
  split
  · next hnone =>
      rw [hclose] at hnone
      cases hnone
  next body' after' hsome =>
  rw [hclose] at hsome
  cases hsome
  split
  · next hparts => rw [hparts]; rfl
  next parts hparts =>
  rw [hparts]
  show _ = expand after >>= fun tails => expandEach parts >>= fun heads => _
  split
  · next htails => rw [htails]; rfl
  next tails htails =>
  rw [htails]
  show _ = expandEach parts >>= fun heads => _
  split
  · next hheads => rw [hheads]; rfl
  next heads hheads =>
  rw [hheads]
  rfl

theorem split_cases (gs : List Glyph) :
    opening ∉ gs ∨
      (∃ before rest, gs = before ++ opening :: rest ∧ opening ∉ before ∧
        splitClosing 0 rest = none) ∨
      ∃ before body after, gs = before ++ opening :: (body ++ closing :: after) ∧
        opening ∉ before ∧ Balanced true body := by
  by_cases hmem : opening ∈ gs
  · rcases List.eq_append_cons_of_mem hmem with ⟨before, rest, rfl, hbefore⟩
    cases hclose : splitClosing 0 rest with
    | none => exact .inr (.inl ⟨before, rest, rfl, hbefore, hclose⟩)
    | some p =>
        rcases splitClosing_eq_some_iff.mp hclose with ⟨rfl, hbody⟩
        exact .inr (.inr ⟨before, p.1, p.2, rfl, hbefore, hbody⟩)
  · exact .inl hmem

theorem openings_group (before body after : List Glyph) :
    openings (before ++ opening :: (body ++ closing :: after)) =
      openings before + openings body + openings after + 1 := by
  simp only [openings_append, openings_cons, if_true, reduceCtorEq, if_false]
  omega

theorem expandEach_of_forall {parts : List (List Glyph)}
    {texts : List Glyph → List (List Glyph)}
    (h : ∀ part ∈ parts, expand part = .ok (texts part)) :
    expandEach parts = .ok (parts.flatMap texts) := by
  induction parts with
  | nil => rw [expandEach, List.flatMap_nil]
  | cons part parts ih =>
      have hall := List.forall_mem_cons.mp h
      rw [expandEach, hall.left, ih hall.right]
      rfl

theorem expand_group_of_ok {before body after : List Glyph} {parts tails heads : List (List Glyph)}
    (hbefore : opening ∉ before) (hbody : Balanced true body)
    (hparts : choices body = .ok parts) (htails : expand after = .ok tails)
    (hheads : expandEach parts = .ok heads) :
    expand (before ++ opening :: (body ++ closing :: after)) =
      .ok ((product heads tails).map (before ++ ·)) := by
  rw [expand_group hbefore hbody, hparts, htails]
  show (expandEach parts >>= fun heads => _) = _
  rw [hheads]
  rfl

theorem exists_of_expand_group {before body after : List Glyph} {es : List (List Glyph)}
    (hbefore : opening ∉ before) (hbody : Balanced true body)
    (h : expand (before ++ opening :: (body ++ closing :: after)) = .ok es) :
    ∃ parts tails heads, choices body = .ok parts ∧ expand after = .ok tails ∧
      expandEach parts = .ok heads ∧ es = (product heads tails).map (before ++ ·) := by
  rw [expand_group hbefore hbody] at h
  rcases bind_eq_ok_iff.mp h with ⟨parts, hparts, h⟩
  rcases bind_eq_ok_iff.mp h with ⟨tails, htails, h⟩
  rcases bind_eq_ok_iff.mp h with ⟨heads, hheads, h⟩
  cases h
  exact ⟨parts, tails, heads, hparts, htails, hheads, rfl⟩

theorem expand_append_of_not_mem {xs ys : List Glyph} {fs : List (List Glyph)}
    (hx : opening ∉ xs) (hy : expand ys = .ok fs) :
    expand (xs ++ ys) = .ok (fs.map (xs ++ ·)) := by
  rcases split_cases ys with hnone | ⟨before, rest, rfl, hbefore, hclose⟩ |
    ⟨before, body, after, rfl, hbefore, hbody⟩
  · rw [expand_of_not_mem hnone] at hy
    cases hy
    have hboth : opening ∉ xs ++ ys := by simp [hx, hnone]
    rw [expand_of_not_mem hboth]
    rfl
  · rw [expand_of_unmatched hbefore hclose] at hy
    cases hy
  · rcases exists_of_expand_group hbefore hbody hy with
      ⟨parts, tails, heads, hparts, htails, hheads, rfl⟩
    have hboth : opening ∉ xs ++ before := by simp [hx, hbefore]
    rw [← List.append_assoc, expand_group_of_ok hboth hbody hparts htails hheads,
      List.map_map]
    simp only [Function.comp_def, List.append_assoc]

theorem expand_append {xs ys : List Glyph} {es fs : List (List Glyph)}
    (hx : expand xs = .ok es) (hy : expand ys = .ok fs) :
    expand (xs ++ ys) = .ok (product es fs) := by
  induction hn : openings xs using Nat.strong_induction_on generalizing xs es with
  | _ n ih =>
      rcases split_cases xs with hnone | ⟨before, rest, rfl, hbefore, hclose⟩ |
        ⟨before, body, after, rfl, hbefore, hbody⟩
      · rw [expand_of_not_mem hnone] at hx
        cases hx
        rw [expand_append_of_not_mem hnone hy]
        simp [product]
      · rw [expand_of_unmatched hbefore hclose] at hx
        cases hx
      · rcases exists_of_expand_group hbefore hbody hx with
          ⟨parts, tails, heads, hparts, htails, hheads, rfl⟩
        rw [openings_group] at hn
        have hafter : expand (after ++ ys) = .ok (product tails fs) :=
          ih (openings after) (by omega) htails rfl
        have hsplit : before ++ opening :: (body ++ closing :: after) ++ ys =
            before ++ opening :: (body ++ closing :: (after ++ ys)) := by
          simp
        rw [hsplit, expand_group_of_ok hbefore hbody hparts hafter hheads, map_append_product,
          map_append_product, product_assoc]

/-! ## What a group stands for -/

theorem mem_toText {g : Glyph} {gs : List Glyph} (hg : g ∈ gs) {c : Char} (hc : c ∈ g.chars) :
    c ∈ toText gs :=
  List.mem_flatMap.mpr ⟨g, hg, hc⟩

theorem choices_of_range {body : List Glyph} {first last : Bound} {a b : Int}
    (hbody : IsRange first last (toText body)) (hfirst : first.value = .ok a)
    (hlast : last.value = .ok b) :
    choices body = .ok ((Int.range (min a b) (max a b + 1)).map fun n =>
      (toString n).toList.map .plain) := by
  rw [choices, rangeBounds?_of_isRange hbody]
  show (do
    let a ← first.value
    let b ← last.value
    return (integersBetween a b).map integerGlyphs : Except GlobError _) = _
  rw [hfirst, hlast, ← integersBetween_eq_range]
  simp only [← Text.decimalOfInt_eq_toString]
  rfl

theorem rangeBounds?_of_not_isRange {body : List Glyph} (hline : '\n' ∉ toText body)
    (hrange : ∀ first last, ¬ IsRange first last (toText body)) :
    rangeBounds? (toText body) = none := by
  cases h : rangeBounds? (toText body) with
  | none => rfl
  | some bounds => exact absurd ((rangeBounds?_eq_some_iff hline).mp h) (hrange _ _)

theorem choices_of_part {body : List Glyph} (hbody : Balanced false body)
    (hline : '\n' ∉ toText body)
    (hrange : ∀ first last, ¬ IsRange first last (toText body)) :
    choices body = .ok [escaped '\x7b' :: (body ++ [escaped '\x7d'])] := by
  have hparts : alternatives 0 body = [body] := by
    have hnone : ∀ other ∈ ([] : List (List Glyph)), Balanced false other := by simp
    have hcut := alternatives_intercalate hbody hnone
    rwa [List.intercalate_singleton] at hcut
  rw [choices, rangeBounds?_of_not_isRange hline hrange]
  simp only [hparts]
  rfl

theorem not_mem_of_isRange {body : List Glyph} {first last : Bound}
    (h : IsRange first last (toText body)) {g : Glyph} (hg : g ∈ [opening, closing, comma]) :
    g ∉ body := by
  intro hmem
  have hfree : ∀ c ∈ g.chars, c = '.' ∨ c = '+' ∨ c = '-' ∨ Text.digitValue? c ≠ none := by
    intro c hc
    exact h.eq_of_mem (mem_toText hmem hc)
  have hcases : g = opening ∨ g = closing ∨ g = comma := by simpa using hg
  rcases hcases with rfl | rfl | rfl
  · exact absurd (hfree '\x7b' (by simp [chars])) (by decide)
  · exact absurd (hfree '\x7d' (by simp [chars])) (by decide)
  · exact absurd (hfree ',' (by simp [chars])) (by decide)

theorem comma_mem_intercalate {parts : List (List Glyph)} (h : 2 ≤ parts.length) :
    comma ∈ [comma].intercalate parts := by
  cases parts with
  | nil => cases h
  | cons part parts =>
      cases parts with
      | nil => simp at h
      | cons next parts =>
          rw [List.intercalate_cons_cons]
          simp

theorem choices_of_parts {parts : List (List Glyph)} (h : 2 ≤ parts.length)
    (hbalanced : ∀ part ∈ parts, Balanced false part)
    (hline : '\n' ∉ toText ([comma].intercalate parts)) :
    choices ([comma].intercalate parts) = .ok parts := by
  have hcut : alternatives 0 ([comma].intercalate parts) = parts := by
    cases parts with
    | nil => simp at h
    | cons part parts =>
        have hall := List.forall_mem_cons.mp hbalanced
        exact alternatives_intercalate hall.left hall.right
  have hrange : ∀ first last, ¬ IsRange first last (toText ([comma].intercalate parts)) := by
    intro first last hrange
    exact not_mem_of_isRange hrange (by simp) (comma_mem_intercalate h)
  rw [choices, rangeBounds?_of_not_isRange hline hrange]
  simp only [hcut]
  split
  · simp at h
  · rfl

/-! ## Scanning follows the structure -/

theorem expand_of_choices {body : List Glyph} {parts heads : List (List Glyph)}
    (hbody : Balanced true body) (hparts : choices body = .ok parts)
    (hheads : expandEach parts = .ok heads) :
    expand (opening :: (body ++ [closing])) = .ok heads := by
  have hnil : expand [] = .ok [[]] := expand_of_not_mem (by simp)
  have hbefore : opening ∉ ([] : List Glyph) := by simp
  have hgroup := expand_group_of_ok hbefore hbody hparts hnil hheads
  rw [product_nil_right] at hgroup
  simpa using hgroup

theorem toText_group (body : List Glyph) :
    toText (opening :: (body ++ [closing])) = '\x7b' :: (toText body ++ ['\x7d']) := by
  simp [chars]

theorem mem_toText_of_slice {gs hs : List Glyph} (h : gs <:+: hs) {c : Char} (hc : c ∈ toText gs) :
    c ∈ toText hs := by
  rcases List.mem_flatMap.mp hc with ⟨g, hg, hgc⟩
  exact mem_toText (h.mem hg) hgc

/-- Expansion by scanning gives the expansions that the structure of the text tells. -/
theorem expand_of_expands {gs : List Glyph} {es : List (List Glyph)} (h : Expands gs es)
    (hline : '\n' ∉ toText gs) : expand gs = .ok es := by
  induction h with
  | text h => exact expand_of_not_mem h
  | append _ _ ihx ihy =>
      rw [toText_append] at hline
      exact expand_append (ihx fun hmem => hline (List.mem_append_left _ hmem))
        (ihy fun hmem => hline (List.mem_append_right _ hmem))
  | @alternatives parts texts hparts hbalanced _ ih =>
      rw [toText_group] at hline
      have hbody : '\n' ∉ toText ([comma].intercalate parts) := by
        intro hmem
        exact hline (by simp [hmem])
      apply expand_of_choices (balanced_intercalate hbalanced)
        (choices_of_parts hparts hbalanced hbody)
      apply expandEach_of_forall
      intro part hpart
      apply ih part hpart
      intro hmem
      exact hbody (mem_toText_of_slice (slice_intercalate hpart) hmem)
  | @range body first last a b hbody hfirst hlast =>
      have hbalanced : Balanced true body :=
        .of_not_mem (not_mem_of_isRange hbody (by simp)) (not_mem_of_isRange hbody (by simp))
      have heach : ∀ part ∈ (Int.range (min a b) (max a b + 1)).map fun n =>
          (toString n).toList.map .plain, expand part = .ok [part] := by
        intro part hpart
        rcases List.mem_map.mp hpart with ⟨n, -, rfl⟩
        exact expand_of_not_mem (by simp)
      apply expand_of_choices hbalanced (choices_of_range hbody hfirst hlast)
      rw [expandEach_of_forall heach, List.flatMap_singleton']
  | @literal body es hbody hrange _ ih =>
      rw [toText_group] at hline
      have hbodyLine : '\n' ∉ toText body := by
        intro hmem
        exact hline (by simp [hmem])
      apply expand_of_choices hbody.weaken (choices_of_part hbody hbodyLine hrange)
      have hopen : expand [escaped '\x7b'] = .ok [[escaped '\x7b']] :=
        expand_of_not_mem (by simp)
      have hclose : expand [escaped '\x7d'] = .ok [[escaped '\x7d']] :=
        expand_of_not_mem (by simp)
      have hwhole := expand_append hopen (expand_append (ih hbodyLine) hclose)
      rw [List.singleton_append] at hwhole
      rw [expandEach, hwhole, expandEach, List.map_eq_flatMap]
      simp [product, List.map_flatMap]

/-! ## Every brace matched -/

theorem exists_expands_group {body : List Glyph} (hbody : Balanced true body)
    (hfit : RangesFit (opening :: (body ++ [closing])))
    (hinner : ∀ part, Balanced false part → part <:+: body → ∃ es, Expands part es) :
    ∃ es, Expands (opening :: (body ++ [closing])) es := by
  by_cases hrange : ∃ first last, IsRange first last (toText body)
  · rcases hrange with ⟨first, last, hrange⟩
    have hlengths := hfit [] body [] first last rfl hrange
    rcases Bound.exists_value hlengths.left with ⟨a, ha⟩
    rcases Bound.exists_value hlengths.right with ⟨b, hb⟩
    exact ⟨_, .range hrange ha hb⟩
  · have hnone : ∀ first last, ¬ IsRange first last (toText body) := by
      intro first last h
      exact hrange ⟨first, last, h⟩
    rcases exists_parts hbody with ⟨part, parts, rfl, hpart, hparts⟩
    cases parts with
    | nil =>
        rw [List.intercalate_singleton] at hinner hnone ⊢
        rcases hinner part hpart List.infix_rfl with ⟨es, hes⟩
        exact ⟨_, .literal hpart hnone hes⟩
    | cons next parts =>
        have hall : ∀ other ∈ part :: next :: parts, Balanced false other :=
          List.forall_mem_cons.mpr ⟨hpart, hparts⟩
        have heach : ∀ other ∈ part :: next :: parts, ∃ es, Expands other es := by
          intro other hother
          exact hinner other (hall other hother) (slice_intercalate hother)
        choose! texts htexts using heach
        exact ⟨_, .alternatives (by simp) hall htexts⟩

theorem hasUnmatched_of_splitClosing {before rest : List Glyph}
    (h : splitClosing 0 rest = none) : HasUnmatched (before ++ opening :: rest) :=
  ⟨before, rest, rfl, splitClosing_eq_none_iff.mp h⟩

theorem group_eq_append (before body after : List Glyph) :
    before ++ opening :: (body ++ closing :: after) =
      before ++ (opening :: (body ++ [closing]) ++ after) := by
  simp

theorem after_slice (before body after : List Glyph) :
    after <:+: before ++ opening :: (body ++ closing :: after) :=
  ⟨before ++ opening :: (body ++ [closing]), [], by simp⟩

theorem group_slice (before body after : List Glyph) :
    opening :: (body ++ [closing]) <:+: before ++ opening :: (body ++ closing :: after) :=
  ⟨before, after, by simp⟩

theorem body_slice (before body after : List Glyph) :
    body <:+: before ++ opening :: (body ++ closing :: after) :=
  ⟨before ++ [opening], closing :: after, by simp⟩

theorem exists_expands {gs : List Glyph} (hmatched : ¬ HasUnmatched gs) (hfit : RangesFit gs) :
    ∃ es, Expands gs es := by
  induction hn : openings gs using Nat.strong_induction_on generalizing gs with
  | _ n ih =>
      rcases split_cases gs with hnone | ⟨before, rest, rfl, hbefore, hclose⟩ |
        ⟨before, body, after, rfl, hbefore, hbody⟩
      · exact ⟨_, .text hnone⟩
      · exact absurd (hasUnmatched_of_splitClosing hclose) hmatched
      · have hcount := openings_group before body after
        have hafter : ∃ es, Expands after es := by
          apply ih (openings after) (by omega) _ (hfit.of_slice (after_slice _ _ _)) rfl
          intro hunmatched
          rw [group_eq_append] at hmatched
          exact hmatched ((hunmatched.append_left _).append_left _)
        have hgroup : ∃ es, Expands (opening :: (body ++ [closing])) es := by
          apply exists_expands_group hbody (hfit.of_slice (group_slice _ _ _))
          intro part hpart hslice
          have hle : openings part ≤ openings body := hslice.sublist.count_le _
          exact ih (openings part) (by omega) hpart.not_hasUnmatched
            (hfit.of_slice (hslice.trans (body_slice _ _ _))) rfl
        rcases hafter with ⟨fs, hfs⟩
        rcases hgroup with ⟨es, hes⟩
        rw [group_eq_append]
        exact ⟨_, .append (.text hbefore) (.append hes hfs)⟩

/-! ## Unmatched braces -/

theorem exists_choices {body : List Glyph} (hbody : Balanced true body)
    (hfit : RangesFit (opening :: (body ++ [closing])))
    (hline : '\n' ∉ toText (opening :: (body ++ [closing]))) :
    ∃ parts, choices body = .ok parts := by
  have hgroup : Balanced true (opening :: (body ++ [closing])) := .group hbody .nil
  rcases exists_expands hgroup.not_hasUnmatched hfit with ⟨es, hes⟩
  have hexpand : expand ([] ++ opening :: (body ++ closing :: [])) = .ok es :=
    expand_of_expands hes hline
  rcases exists_of_expand_group (by simp) hbody hexpand with ⟨parts, -, -, hparts, -⟩
  exact ⟨parts, hparts⟩

theorem HasUnmatched.of_group {before body after : List Glyph} (hbefore : opening ∉ before)
    (hbody : Balanced true body)
    (h : HasUnmatched (before ++ opening :: (body ++ closing :: after))) :
    HasUnmatched after := by
  have hgroup : Balanced true (opening :: (body ++ [closing])) := .group hbody .nil
  rw [group_eq_append] at h
  rcases of_append h with hfront | hrest
  · exact absurd hfront (not_of_not_mem hbefore)
  · rcases of_append hrest with hinside | hafter
    · exact absurd hinside hgroup.not_hasUnmatched
    · exact hafter

theorem expand_of_hasUnmatched {gs : List Glyph} (h : HasUnmatched gs) (hfit : RangesFit gs)
    (hline : '\n' ∉ toText gs) : ∃ rest, expand gs = .error (.unmatchedBrace rest) := by
  induction hn : openings gs using Nat.strong_induction_on generalizing gs with
  | _ n ih =>
      rcases split_cases gs with hnone | ⟨before, rest, rfl, hbefore, hclose⟩ |
        ⟨before, body, after, rfl, hbefore, hbody⟩
      · exact absurd h (HasUnmatched.not_of_not_mem hnone)
      · exact ⟨_, expand_of_unmatched hbefore hclose⟩
      · have hcount := openings_group before body after
        have hgroupLine : '\n' ∉ toText (opening :: (body ++ [closing])) :=
          fun hmem => hline (mem_toText_of_slice (group_slice _ _ _) hmem)
        have hafterLine : '\n' ∉ toText after :=
          fun hmem => hline (mem_toText_of_slice (after_slice _ _ _) hmem)
        rcases exists_choices hbody (hfit.of_slice (group_slice _ _ _)) hgroupLine with
          ⟨parts, hparts⟩
        rcases ih (openings after) (by omega) (h.of_group hbefore hbody)
          (hfit.of_slice (after_slice _ _ _)) hafterLine rfl with ⟨rest, hrest⟩
        refine ⟨rest, ?_⟩
        rw [expand_group hbefore hbody, hparts, hrest]
        rfl

/-! ## The expansions of a name -/

theorem expansions_eq_ok {pattern : String} {es : List (List Glyph)}
    (h : expand (ofText pattern.toList) = .ok es) :
    expansions pattern = .ok (es.map fun e => String.ofList (toText e)) := by
  rw [expansions, h]
  rfl

theorem expansions_eq_error {pattern : String} {e : GlobError}
    (h : expand (ofText pattern.toList) = .error e) : expansions pattern = .error e := by
  rw [expansions, h]
  rfl

theorem expansions_of_opening_not_mem {name : String} (h : opening ∉ ofText name.toList) :
    expansions name = .ok [name] := by
  rw [expansions_eq_ok (expand_of_not_mem h), List.map_singleton, toText_ofText,
    String.ofList_toList]

/-- A name in one line is refused just when one of its opening braces has no partner, and
stands otherwise for the texts that its structure tells, in this order. -/
theorem expansions_eq_reference (pattern : String) (hline : '\n' ∉ pattern.toList)
    (hfit : RangesFit (ofText pattern.toList)) :
    ((∃ e, expansions pattern = .error e) ↔ HasUnmatched (ofText pattern.toList)) ∧
    (HasUnmatched (ofText pattern.toList) →
      ∃ rest, expansions pattern = .error (.unmatchedBrace rest)) ∧
    (¬ HasUnmatched (ofText pattern.toList) →
      ∃ es, (∀ fs, Expands (ofText pattern.toList) fs ↔ fs = es) ∧
        expansions pattern = .ok (es.map fun e => String.ofList (toText e))) := by
  have hglyphs : '\n' ∉ toText (ofText pattern.toList) := by
    rw [toText_ofText]
    exact hline
  have hrefused : HasUnmatched (ofText pattern.toList) →
      ∃ rest, expansions pattern = .error (.unmatchedBrace rest) := by
    intro hunmatched
    rcases expand_of_hasUnmatched hunmatched hfit hglyphs with ⟨rest, hrest⟩
    exact ⟨rest, expansions_eq_error hrest⟩
  have hexpanded : ¬ HasUnmatched (ofText pattern.toList) →
      ∃ es, (∀ fs, Expands (ofText pattern.toList) fs ↔ fs = es) ∧
        expansions pattern = .ok (es.map fun e => String.ofList (toText e)) := by
    intro hmatched
    rcases exists_expands hmatched hfit with ⟨es, hes⟩
    have hexpand := expand_of_expands hes hglyphs
    refine ⟨es, ?_, expansions_eq_ok hexpand⟩
    intro fs
    constructor
    · intro hfs
      rw [expand_of_expands hfs hglyphs] at hexpand
      exact Except.ok.inj hexpand
    · intro heq
      rw [heq]
      exact hes
  refine ⟨⟨?_, ?_⟩, hrefused, hexpanded⟩
  · intro hfails
    by_contra hmatched
    rcases hfails with ⟨e, he⟩
    rcases hexpanded hmatched with ⟨es, -, hes⟩
    rw [he] at hes
    cases hes
  · intro hunmatched
    rcases hrefused hunmatched with ⟨rest, hrest⟩
    exact ⟨_, hrest⟩

/-- A range inside an alternative, an escaped brace, a group without a choice, and a closing
brace that closes nothing: the alternatives `a` and `b-1`, `b0`, `b1`, each before the rest. -/
theorem expansions_eq_reference_nested :
    ∃ es, (∀ fs, Expands (ofText "\x7ba,b\x7b1..-1\x7d\x7d\\\x7b\x7bx\x7d\x7d".toList) fs ↔
        fs = es) ∧
      es.map (fun e => String.ofList (toText e)) =
        ["a\\\x7b\\\x7bx\\\x7d\x7d", "b-1\\\x7b\\\x7bx\\\x7d\x7d",
          "b0\\\x7b\\\x7bx\\\x7d\x7d", "b1\\\x7b\\\x7bx\\\x7d\x7d"] := by
  have hexpansions : expansions "\x7ba,b\x7b1..-1\x7d\x7d\\\x7b\x7bx\x7d\x7d" =
      .ok ["a\\\x7b\\\x7bx\\\x7d\x7d", "b-1\\\x7b\\\x7bx\\\x7d\x7d",
        "b0\\\x7b\\\x7bx\\\x7d\x7d", "b1\\\x7b\\\x7bx\\\x7d\x7d"] := by
    cbv
  have hfit : RangesFit (ofText "\x7ba,b\x7b1..-1\x7d\x7d\\\x7b\x7bx\x7d\x7d".toList) := by
    apply RangesFit.of_length_le
    decide
  rcases expansions_eq_reference "\x7ba,b\x7b1..-1\x7d\x7d\\\x7b\x7bx\x7d\x7d" (by decide)
    hfit with ⟨hrefused, -, hexpanded⟩
  have hmatched :
      ¬ HasUnmatched (ofText "\x7ba,b\x7b1..-1\x7d\x7d\\\x7b\x7bx\x7d\x7d".toList) := by
    intro hunmatched
    rcases hrefused.mpr hunmatched with ⟨e, he⟩
    rw [hexpansions] at he
    cases he
  rcases hexpanded hmatched with ⟨es, hes, htexts⟩
  rw [hexpansions] at htexts
  exact ⟨es, hes, (Except.ok.inj htexts).symm⟩

end Glob
end FileStyle
