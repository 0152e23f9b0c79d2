import FileStyle.Proofs.Expansion

/-!
# Texts that can be expanded

Expansion refuses a text for an opening brace without a partner or for a range with a bound
that is too long to be read, and for nothing else. A range has no braces, so that it lies
on one side of every brace and comma around it: the ranges of a text are those of its
groups, of their alternatives, and of what stands behind them.
-/

namespace FileStyle
namespace Glob

open Glyph

/-! ## Slices around a glyph -/

theorem slice_of_not_mem {slice xs ys : List Glyph} {g : Glyph} (hg : g ∉ slice)
    (h : slice <:+: xs ++ g :: ys) : slice <:+: xs ∨ slice <:+: ys := by
  rcases h with ⟨front, back, heq⟩
  rw [List.append_assoc] at heq
  rcases List.append_eq_append_iff.mp heq with ⟨a, rfl, hrest⟩ | ⟨a, rfl, hrest⟩
  · rcases List.append_eq_append_iff.mp hrest with ⟨b, rfl, -⟩ | ⟨b, rfl, hb⟩
    · exact .inl ⟨front, b, by simp⟩
    · cases b with
      | nil => exact .inl ⟨front, [], by simp⟩
      | cons first b =>
          cases hb
          exact absurd (by simp) hg
  · cases a with
    | nil =>
        cases slice with
        | nil => exact .inl (List.nil_infix)
        | cons first slice =>
            cases hrest
            exact absurd List.mem_cons_self hg
    | cons first a =>
        cases hrest
        exact .inr ⟨a, back, by simp⟩

theorem slice_of_opening {slice before rest : List Glyph} (hbefore : opening ∉ before)
    (h : opening :: slice <:+: before ++ opening :: rest) :
    slice <+: rest ∨ opening :: slice <:+: rest := by
  rcases h with ⟨front, back, heq⟩
  rw [List.append_assoc, List.cons_append] at heq
  rcases List.append_eq_append_iff.mp heq with ⟨a, rfl, hrest⟩ | ⟨a, rfl, hrest⟩
  · cases a with
    | nil => exact .inl ⟨back, (List.cons.inj hrest).right⟩
    | cons first a =>
        have hfirst : opening = first := (List.cons.inj hrest).left
        exact absurd (by simp [hfirst]) hbefore
  · cases a with
    | nil => exact .inl ⟨back, (List.cons.inj hrest).right.symm⟩
    | cons first a =>
        have hbehind : rest = a ++ opening :: (slice ++ back) := (List.cons.inj hrest).right
        exact .inr ⟨a, back, by simp [hbehind]⟩

theorem Balanced.closing_unique {body body' after after' : List Glyph}
    (hbody : Balanced true body) (hbody' : Balanced true body')
    (h : body ++ closing :: after = body' ++ closing :: after') :
    body = body' ∧ after = after' := by
  have hsplit : splitClosing 0 (body' ++ closing :: after') = some (body, after) :=
    splitClosing_eq_some_iff.mpr ⟨h.symm, hbody⟩
  rw [splitClosing_eq_some_iff.mpr ⟨rfl, hbody'⟩] at hsplit
  cases hsplit
  exact ⟨rfl, rfl⟩

theorem slice_of_group {body group after : List Glyph} (hbody : Balanced true body)
    (hgroup : Balanced true group)
    (h : opening :: (group ++ [closing]) <:+: body ++ closing :: after) :
    opening :: (group ++ [closing]) <:+: body ∨ opening :: (group ++ [closing]) <:+: after := by
  rcases h with ⟨front, back, heq⟩
  have hwhole : front ++ opening :: (group ++ closing :: back) = body ++ closing :: after := by
    rw [← heq]
    simp
  rcases List.append_eq_append_iff.mp hwhole with ⟨a, rfl, hrest⟩ | ⟨a, rfl, hrest⟩
  · cases a with
    | nil => cases (List.cons.inj hrest).left
    | cons first a =>
        have hinside : group ++ closing :: back = a ++ closing :: after :=
          (List.cons.inj hrest).right
        cases (List.cons.inj hrest).left
        -- The group opens in the balanced text, which therefore closes it as well.
        have hclosed : ∃ inner rest, a = inner ++ closing :: rest ∧ Balanced true inner := by
          by_contra hnone
          exact hbody.not_hasUnmatched ⟨front, a, rfl, hnone⟩
        rcases hclosed with ⟨inner, rest, rfl, hinner⟩
        rw [List.append_assoc] at hinside
        rcases hgroup.closing_unique hinner hinside with ⟨rfl, -⟩
        exact .inl (group_slice front group rest)
  · cases a with
    | nil => cases (List.cons.inj hrest).left
    | cons first a =>
        have hbehind : after = a ++ opening :: (group ++ closing :: back) :=
          (List.cons.inj hrest).right
        exact .inr ⟨a, back, by simp [hbehind]⟩

/-! ## Ranges that fit -/

theorem Bound.length_le_of_value {b : Bound} {n : Int} (h : b.value = .ok n) :
    b.digits.length ≤ Text.maxDigits := by
  rw [value] at h
  split at h
  · next hle => exact hle
  · cases h

def Fits (first last : Bound) : Prop :=
  first.digits.length ≤ Text.maxDigits ∧ last.digits.length ≤ Text.maxDigits

theorem balanced_of_isRange {body : List Glyph} {first last : Bound}
    (h : IsRange first last (toText body)) : Balanced true body :=
  .of_not_mem (not_mem_of_isRange h (by simp)) (not_mem_of_isRange h (by simp))

namespace RangesFit

variable {gs hs : List Glyph}

theorem iff_slices : RangesFit gs ↔ ∀ body first last,
    opening :: (body ++ [closing]) <:+: gs → IsRange first last (toText body) →
      Fits first last := by
  constructor
  · intro h body first last hslice hrange
    rcases hslice with ⟨before, after, rfl⟩
    exact h before body after first last (by simp) hrange
  · intro h before body after first last heq hrange
    rw [heq] at h
    exact h body first last (group_slice before body after) hrange

theorem of_not_mem (h : opening ∉ gs) : RangesFit gs := by
  rw [iff_slices]
  intro body first last hslice _
  exact absurd (hslice.mem List.mem_cons_self) h

theorem around {g : Glyph} (hopen : g ≠ opening) (hclose : g ≠ closing)
    (hfree : ∀ body first last, IsRange first last (toText body) → g ∉ body)
    (hg : RangesFit gs) (hh : RangesFit hs) : RangesFit (gs ++ g :: hs) := by
  rw [iff_slices] at *
  intro body first last hslice hrange
  have hgroup : g ∉ opening :: (body ++ [closing]) := by
    simp [hopen, hclose, hfree body first last hrange]
  rcases slice_of_not_mem hgroup hslice with hfront | hback
  · exact hg body first last hfront hrange
  · exact hh body first last hback hrange

theorem comma (hg : RangesFit gs) (hh : RangesFit hs) : RangesFit (gs ++ comma :: hs) :=
  hg.around (by decide) (by decide) (fun _ _ _ hrange => not_mem_of_isRange hrange (by simp)) hh

theorem escaped (c : Char) (hg : RangesFit gs) (hh : RangesFit hs) :
    RangesFit (gs ++ escaped c :: hs) := by
  apply hg.around (by simp) (by simp) _ hh
  intro body first last hrange hmem
  have hbackslash : '\\' ∈ toText body := mem_toText hmem (by simp [chars])
  exact absurd (hrange.eq_of_mem hbackslash) (by decide)

theorem intercalate {parts : List (List Glyph)} (h : ∀ part ∈ parts, RangesFit part) :
    RangesFit ([Glyph.comma].intercalate parts) := by
  induction parts with
  | nil => exact of_not_mem (by simp)
  | cons part parts ih =>
      have hall := List.forall_mem_cons.mp h
      cases parts with
      | nil =>
          rw [List.intercalate_singleton]
          exact hall.left
      | cons next parts =>
          rw [List.intercalate_cons_cons, List.append_assoc]
          exact hall.left.comma (ih hall.right)

theorem group {before body after : List Glyph} (hbefore : opening ∉ before)
    (hbody : Balanced true body)
    (hself : ∀ first last, IsRange first last (toText body) → Fits first last)
    (hinside : RangesFit body) (hbehind : RangesFit after) :
    RangesFit (before ++ opening :: (body ++ closing :: after)) := by
  rw [iff_slices] at *
  intro range first last hslice hrange
  have hbalanced : Balanced true range := balanced_of_isRange hrange
  rcases slice_of_opening hbefore hslice with hstart | hlater
  · rcases hstart with ⟨rest, hrest⟩
    rw [List.append_assoc] at hrest
    rcases hbalanced.closing_unique hbody hrest with ⟨rfl, -⟩
    exact hself first last hrange
  · rcases slice_of_group hbody hbalanced hlater with hin | hafter
    · exact hinside range first last hin hrange
    · exact hbehind range first last hafter hrange

end RangesFit

theorem exists_expand_of_expandEach {parts heads : List (List Glyph)}
    (h : expandEach parts = .ok heads) : ∀ part ∈ parts, ∃ es, expand part = .ok es := by
  induction parts generalizing heads with
  | nil =>
      intro part hpart
      cases hpart
  | cons first parts ih =>
      rw [expandEach] at h
      split at h
      · cases h
      · next es hes =>
          split at h
          · cases h
          · next others hothers => exact List.forall_mem_cons.mpr ⟨⟨es, hes⟩, ih hothers⟩

theorem openings_le_of_mem {part : List Glyph} {parts : List (List Glyph)} (h : part ∈ parts) :
    openings part ≤ totalOpenings parts := by
  induction parts with
  | nil => cases h
  | cons first parts ih =>
      rw [totalOpenings_cons]
      rcases List.mem_cons.mp h with rfl | hrest
      · exact Nat.le_add_right _ _
      · exact (ih hrest).trans (Nat.le_add_left _ _)

theorem choices_cases {body : List Glyph} {parts : List (List Glyph)}
    (hbody : Balanced true body) (h : choices body = .ok parts) :
    (∃ ns : List Int, parts = ns.map integerGlyphs) ∨
      parts = [escaped '\x7b' :: (body ++ [escaped '\x7d'])] ∨
      (∀ part ∈ parts, Balanced false part) ∧ body = [comma].intercalate parts := by
  rcases exists_parts hbody with ⟨first, others, hcut, hfirst, hothers⟩
  have halternatives : alternatives 0 body = first :: others := by
    rw [hcut]
    exact alternatives_intercalate hfirst hothers
  unfold choices at h
  split at h
  · rcases bind_eq_ok_iff.mp h with ⟨a, -, h⟩
    rcases bind_eq_ok_iff.mp h with ⟨b, -, h⟩
    cases h
    exact .inl ⟨_, rfl⟩
  · rw [halternatives] at h
    split at h
    · cases h
      exact .inr (.inl rfl)
    · cases h
      exact .inr (.inr ⟨List.forall_mem_cons.mpr ⟨hfirst, hothers⟩, hcut⟩)

theorem RangesFit.of_mem_choices {body part : List Glyph} {parts : List (List Glyph)}
    (hfit : RangesFit body) (hbody : Balanced true body) (h : choices body = .ok parts)
    (hpart : part ∈ parts) : RangesFit part := by
  rcases choices_cases hbody h with ⟨ns, rfl⟩ | rfl | ⟨-, rfl⟩
  · rcases List.mem_map.mp hpart with ⟨n, -, rfl⟩
    exact .of_not_mem (by simp [integerGlyphs])
  · have hnil : RangesFit [] := .of_not_mem (by simp)
    rw [List.mem_singleton.mp hpart]
    exact hnil.escaped '\x7b' (hfit.escaped '\x7d' hnil)
  · exact hfit.of_slice (slice_intercalate hpart)

theorem rangesFit_of_choices {body : List Glyph} {parts : List (List Glyph)}
    (hbody : Balanced true body) (hline : '\n' ∉ toText body)
    (hparts : choices body = .ok parts)
    (hfit : ∀ part ∈ parts, '\n' ∉ toText part → RangesFit part) :
    (∀ first last, IsRange first last (toText body) → Fits first last) ∧ RangesFit body := by
  by_cases hrange : ∃ first last, IsRange first last (toText body)
  · rcases hrange with ⟨first, last, hrange⟩
    rw [choices, rangeBounds?_of_isRange hrange] at hparts
    rcases bind_eq_ok_iff.mp hparts with ⟨a, ha, hparts⟩
    rcases bind_eq_ok_iff.mp hparts with ⟨b, hb, -⟩
    constructor
    · intro first' last' hrange'
      have hsame := rangeBounds?_of_isRange hrange'
      rw [rangeBounds?_of_isRange hrange] at hsame
      cases hsame
      exact ⟨Bound.length_le_of_value ha, Bound.length_le_of_value hb⟩
    · exact .of_not_mem (not_mem_of_isRange hrange (by simp))
  · have hnone : ∀ first last, ¬ IsRange first last (toText body) := by
      intro first last h
      exact hrange ⟨first, last, h⟩
    refine ⟨fun first last h => absurd h (hnone first last), ?_⟩
    rcases exists_parts hbody with ⟨part, others, rfl, hpart, hothers⟩
    cases others with
    | nil =>
        rw [List.intercalate_singleton] at hline hnone hparts ⊢
        rw [choices_of_part hpart hline hnone] at hparts
        cases hparts
        have hslice : part <:+: escaped '\x7b' :: (part ++ [escaped '\x7d']) :=
          ⟨[escaped '\x7b'], [escaped '\x7d'], by simp⟩
        have hpartLine : '\n' ∉ toText (escaped '\x7b' :: (part ++ [escaped '\x7d'])) := by
          simpa [chars] using hline
        exact (hfit _ List.mem_cons_self hpartLine).of_slice hslice
    | cons next others =>
        have hall : ∀ other ∈ part :: next :: others, Balanced false other :=
          List.forall_mem_cons.mpr ⟨hpart, hothers⟩
        rw [choices_of_parts (by simp) hall hline] at hparts
        cases hparts
        apply RangesFit.intercalate
        intro other hother
        apply hfit other hother
        intro hmem
        exact hline (mem_toText_of_slice (slice_intercalate hother) hmem)

theorem rangesFit_of_expand {gs : List Glyph} {es : List (List Glyph)}
    (h : expand gs = .ok es) (hline : '\n' ∉ toText gs) : RangesFit gs := by
  -- What a group stands for need not be a part of it, but it has fewer opening braces.
  induction hn : openings gs using Nat.strong_induction_on generalizing gs es with
  | _ n ih =>
      rcases split_cases gs with hnone | ⟨before, rest, rfl, hbefore, hclose⟩ |
        ⟨before, body, after, rfl, hbefore, hbody⟩
      · exact .of_not_mem hnone
      · rw [expand_of_unmatched hbefore hclose] at h
        cases h
      · have hcount := openings_group before body after
        rcases exists_of_expand_group hbefore hbody h with
          ⟨parts, tails, heads, hparts, htails, hheads, -⟩
        have hafterLine : '\n' ∉ toText after :=
          fun hmem => hline (mem_toText_of_slice (after_slice _ _ _) hmem)
        have hbodyLine : '\n' ∉ toText body :=
          fun hmem => hline (mem_toText_of_slice (body_slice _ _ _) hmem)
        have hafter : RangesFit after := ih (openings after) (by omega) htails hafterLine rfl
        have heach : ∀ part ∈ parts, '\n' ∉ toText part → RangesFit part := by
          intro part hpart hpartLine
          rcases exists_expand_of_expandEach hheads part hpart with ⟨fs, hfs⟩
          have hle : openings part ≤ openings body :=
            (openings_le_of_mem hpart).trans (totalOpenings_choices hparts)
          exact ih (openings part) (by omega) hfs hpartLine rfl
        rcases rangesFit_of_choices hbody hbodyLine hparts heach with ⟨hself, hinside⟩
        exact .group hbefore hbody hself hinside hafter

/-! ## Unmatched braces -/

theorem eq_tooManyDigits_of_choices {body : List Glyph} {e : GlobError}
    (h : choices body = .error e) : ∃ count, e = .tooManyDigits count := by
  have hvalue : ∀ b : Bound, b.value = .error e → ∃ count, e = .tooManyDigits count := by
    intro b hb
    rw [Bound.value] at hb
    split at hb
    · cases hb
    · cases hb
      exact ⟨_, rfl⟩
  unfold choices at h
  split at h
  · next first last _ =>
      rcases bind_eq_error_iff.mp h with hfirst | ⟨a, -, h⟩
      · exact hvalue first hfirst
      · rcases bind_eq_error_iff.mp h with hlast | ⟨b, -, h⟩
        · exact hvalue last hlast
        · cases h
  · split at h
    · cases h
    · cases h

theorem not_hasUnmatched_of_choices {body : List Glyph} {parts : List (List Glyph)}
    (hbody : Balanced true body) (h : choices body = .ok parts) :
    ∀ part ∈ parts, ¬ HasUnmatched part := by
  rcases choices_cases hbody h with ⟨ns, rfl⟩ | rfl | ⟨hparts, -⟩
  · intro part hpart
    rcases List.mem_map.mp hpart with ⟨n, -, rfl⟩
    exact HasUnmatched.not_of_not_mem (by simp [integerGlyphs])
  · have hclose : Balanced true [escaped '\x7d'] :=
      .glyph (by simp) (by simp) (fun _ => rfl) .nil
    have hescaped : Balanced true (escaped '\x7b' :: (body ++ [escaped '\x7d'])) :=
      .glyph (by simp) (by simp) (fun _ => rfl) (hbody.append hclose)
    intro part hpart
    rw [List.mem_singleton.mp hpart]
    exact hescaped.not_hasUnmatched
  · intro part hpart
    exact (hparts part hpart).not_hasUnmatched

theorem exists_of_expandEach_error {parts : List (List Glyph)} {e : GlobError}
    (h : expandEach parts = .error e) : ∃ part ∈ parts, expand part = .error e := by
  induction parts with
  | nil =>
      rw [expandEach] at h
      cases h
  | cons first parts ih =>
      rw [expandEach] at h
      split at h
      · next fault hfault =>
          cases h
          exact ⟨first, List.mem_cons_self, hfault⟩
      · split at h
        · next fault hfault =>
            cases h
            rcases ih hfault with ⟨part, hpart, he⟩
            exact ⟨part, List.mem_cons_of_mem _ hpart, he⟩
        · cases h

theorem hasUnmatched_of_expand {gs : List Glyph} {text : String}
    (h : expand gs = .error (.unmatchedBrace text)) : HasUnmatched gs := by
  induction hn : openings gs using Nat.strong_induction_on generalizing gs with
  | _ n ih =>
      rcases split_cases gs with hnone | ⟨before, rest, rfl, hbefore, hclose⟩ |
        ⟨before, body, after, rfl, hbefore, hbody⟩
      · rw [expand_of_not_mem hnone] at h
        cases h
      · exact hasUnmatched_of_splitClosing hclose
      · have hcount := openings_group before body after
        rw [expand_group hbefore hbody] at h
        rcases bind_eq_error_iff.mp h with hchoices | ⟨parts, hparts, h⟩
        · rcases eq_tooManyDigits_of_choices hchoices with ⟨count, hdigits⟩
          cases hdigits
        rcases bind_eq_error_iff.mp h with hafter | ⟨tails, -, h⟩
        · have hbehind : HasUnmatched after := ih (openings after) (by omega) hafter rfl
          rw [group_eq_append]
          exact (hbehind.append_left _).append_left _
        rcases bind_eq_error_iff.mp h with heach | ⟨heads, -, h⟩
        · rcases exists_of_expandEach_error heach with ⟨part, hpart, hfault⟩
          have hle : openings part ≤ openings body :=
            (openings_le_of_mem hpart).trans (totalOpenings_choices hparts)
          have hinside : HasUnmatched part := ih (openings part) (by omega) hfault rfl
          exact absurd hinside (not_hasUnmatched_of_choices hbody hparts part hpart)
        · cases h

/-- A text in one line can be expanded just when every opening brace has its partner and no
range has a bound that is too long. -/
theorem exists_expand_iff {gs : List Glyph} (hline : '\n' ∉ toText gs) :
    (∃ es, expand gs = .ok es) ↔ ¬ HasUnmatched gs ∧ RangesFit gs := by
  constructor
  · intro h
    rcases h with ⟨es, hes⟩
    have hfit := rangesFit_of_expand hes hline
    refine ⟨?_, hfit⟩
    intro hunmatched
    rcases expand_of_hasUnmatched hunmatched hfit hline with ⟨rest, hrest⟩
    rw [hes] at hrest
    cases hrest
  · intro h
    rcases exists_expands h.left h.right with ⟨es, hes⟩
    exact ⟨es, expand_of_expands hes hline⟩

end Glob
end FileStyle
