import FileStyle.Proofs.NormalForm

/-!
# The calls of expansion

To expand a name is to expand what stands behind its first group, and each of the texts
that this group stands for. Such a text can be longer than the name, but it has fewer
opening braces, so that the calls come to an end. None of these texts has a brace without a
partner: only the name itself, and what is left of it behind some of its groups, can be
refused for one.
-/

namespace FileStyle
namespace Glob

open Glyph

/-! ## The first group of a name -/

def textOf (gs : List Glyph) : String :=
  String.ofList (toText gs)

@[simp] theorem toList_textOf (gs : List Glyph) : (textOf gs).toList = toText gs :=
  String.toList_ofList

theorem textOf_append (gs hs : List Glyph) : textOf (gs ++ hs) = textOf gs ++ textOf hs := by
  rw [textOf, toText_append, String.ofList_append]
  rfl

structure FirstGroup (name : String) (before body after : List Glyph) : Prop where
  glyphs : ofText name.toList = before ++ opening :: (body ++ closing :: after)
  opening_not_mem : opening ∉ before
  balanced : Balanced true body

def FirstUnclosed (name : String) : Prop :=
  ∃ before rest, ofText name.toList = before ++ opening :: rest ∧ opening ∉ before ∧
    ¬ ∃ body after, rest = body ++ closing :: after ∧ Balanced true body

theorem firstGroup_cases (name : String) :
    opening ∉ ofText name.toList ∨ FirstUnclosed name ∨
      ∃ before body after, FirstGroup name before body after := by
  rcases split_cases (ofText name.toList) with hnone | ⟨before, rest, heq, hbefore, hclose⟩ |
    ⟨before, body, after, heq, hbefore, hbody⟩
  · exact .inl hnone
  · exact .inr (.inl ⟨before, rest, heq, hbefore, splitClosing_eq_none_iff.mp hclose⟩)
  · exact .inr (.inr ⟨before, body, after, heq, hbefore, hbody⟩)

theorem FirstUnclosed.expansions_eq {name : String} (h : FirstUnclosed name) :
    expansions name = .error (.unmatchedBrace name) := by
  rcases h with ⟨before, rest, heq, hbefore, hnone⟩
  have hrefused := expand_of_unmatched hbefore (splitClosing_eq_none_iff.mpr hnone)
  rw [← heq] at hrefused
  rw [expansions_eq_error hrefused, toText_ofText, String.ofList_toList]

namespace FirstGroup

variable {name : String} {before body after part : List Glyph} {parts : List (List Glyph)}

theorem isWhole_and_readBack (h : FirstGroup name before body after) :
    (∀ g ∈ body, g.IsWhole) ∧ ReadBack after := by
  have hname := readBack_ofText name.toList
  rw [h.glyphs] at hname
  rcases hname.of_append_cons with ⟨-, hgroup⟩
  rcases hgroup.tail.of_append_cons with ⟨hbody, hafter⟩
  exact ⟨hbody, hafter.tail⟩

theorem ofText_after (h : FirstGroup name before body after) :
    ofText (textOf after).toList = after := by
  rw [toList_textOf, h.isWhole_and_readBack.right.ofText_toText]

theorem ofText_part (h : FirstGroup name before body after) (hparts : choices body = .ok parts)
    (hpart : part ∈ parts) : ofText (textOf part).toList = part := by
  have hwhole : ∀ g ∈ part, g.IsWhole := by
    intro g hg
    rcases mem_of_mem_choices h.balanced hparts hpart hg with hinside | hadded
    · exact h.isWhole_and_readBack.left g hinside
    · exact isWhole_of_mem_addedGlyphs g hadded
  have hread := ofText_toText_append hwhole []
  rw [ofText, List.append_nil, List.append_nil] at hread
  rw [toList_textOf, hread]

theorem slice_group (h : FirstGroup name before body after) :
    opening :: (body ++ [closing]) <:+: ofText name.toList := by
  rw [h.glyphs]
  exact group_slice before body after

theorem slice_body (h : FirstGroup name before body after) : body <:+: ofText name.toList := by
  rw [h.glyphs]
  exact body_slice before body after

theorem slice_after (h : FirstGroup name before body after) : after <:+: ofText name.toList := by
  rw [h.glyphs]
  exact after_slice before body after

end FirstGroup

/-! ## Expansion from texts to texts -/

theorem expansions_textOf {gs : List Glyph} (h : ofText (textOf gs).toList = gs) :
    expansions (textOf gs) = (expand gs).map (List.map textOf) := by
  rw [expansions, h]
  rfl

theorem map_flatten_mapM_expansions {parts : List (List Glyph)}
    (h : ∀ part ∈ parts, ofText (textOf part).toList = part) :
    (parts.mapM fun part => expansions (textOf part)).map List.flatten =
      (expandEach parts).map (List.map textOf) := by
  induction parts with
  | nil =>
      rw [expandEach]
      rfl
  | cons part parts ih =>
      have hall := List.forall_mem_cons.mp h
      have hrest := ih hall.right
      rw [List.mapM_cons, expandEach, expansions_textOf hall.left]
      cases expand part with
      | error e => rfl
      | ok first =>
          show Except.map List.flatten
            ((parts.mapM fun part => expansions (textOf part)) >>= fun others => _) = _
          cases heach : expandEach parts with
          | error e =>
              rw [heach] at hrest
              rw [map_eq_error_iff.mp hrest]
              rfl
          | ok others =>
              rw [heach] at hrest
              rcases map_eq_ok_iff.mp hrest with ⟨texts, htexts, hflatten⟩
              rw [htexts]
              show Except.ok (first.map textOf ++ texts.flatten) =
                .ok ((first ++ others).map textOf)
              rw [hflatten, List.map_append]

theorem map_textOf_product (before : List Glyph) (heads tails : List (List Glyph)) :
    ((product heads tails).map (before ++ ·)).map textOf =
      (heads.map textOf).flatMap fun head =>
        (tails.map textOf).map fun tail => textOf before ++ (head ++ tail) := by
  simp only [product, List.map_flatMap, List.flatMap_map, List.map_map, Function.comp_def,
    textOf_append]

/-- A name with a group is expanded by expanding other texts: what is behind the group, and
then each text that the group stands for. -/
theorem FirstGroup.expansions_eq {name : String} {before body after : List Glyph}
    (h : FirstGroup name before body after) :
    expansions name = do
      let parts ← choices body
      let tails ← expansions (textOf after)
      let heads ← parts.mapM fun part => expansions (textOf part)
      return heads.flatten.flatMap fun head =>
        tails.map fun tail => textOf before ++ (head ++ tail) := by
  have hname : expansions name = (expand (ofText name.toList)).map (List.map textOf) := rfl
  rw [hname, h.glyphs, expand_group h.opening_not_mem h.balanced,
    expansions_textOf h.ofText_after]
  -- Both sides stop at the first step that fails, and give its error.
  cases hparts : choices body with
  | error e => rfl
  | ok parts =>
      cases expand after with
      | error e => rfl
      | ok tails =>
          have heach := map_flatten_mapM_expansions fun part => h.ofText_part hparts
          show Except.map (List.map textOf) (expandEach parts >>= fun heads => _) =
            (parts.mapM fun part => expansions (textOf part)) >>= fun heads => _
          cases hheads : expandEach parts with
          | error e =>
              rw [hheads] at heach
              rw [map_eq_error_iff.mp heach]
              rfl
          | ok heads =>
              rw [hheads] at heach
              rcases map_eq_ok_iff.mp heach with ⟨texts, htexts, hflatten⟩
              rw [htexts]
              show Except.ok (((product heads tails).map (before ++ ·)).map textOf) =
                .ok (texts.flatten.flatMap _)
              rw [hflatten, map_textOf_product]

theorem expansions_cases (name : String) :
    (opening ∉ ofText name.toList ∧ expansions name = .ok [name]) ∨
      (FirstUnclosed name ∧ expansions name = .error (.unmatchedBrace name)) ∨
      ∃ before body after, FirstGroup name before body after ∧
        expansions name = do
          let parts ← choices body
          let tails ← expansions (textOf after)
          let heads ← parts.mapM fun part => expansions (textOf part)
          return heads.flatten.flatMap fun head =>
            tails.map fun tail => textOf before ++ (head ++ tail) := by
  rcases firstGroup_cases name with hnone | hunclosed | ⟨before, body, after, hgroup⟩
  · exact .inl ⟨hnone, expansions_of_opening_not_mem hnone⟩
  · exact .inr (.inl ⟨hunclosed, hunclosed.expansions_eq⟩)
  · exact .inr (.inr ⟨before, body, after, hgroup, hgroup.expansions_eq⟩)

/-! ## Calls -/

/-- The second text is what stands behind the first group of the first. -/
def IsRest (name rest : String) : Prop :=
  ∃ before body after, FirstGroup name before body after ∧ rest = textOf after

def IsChoice (name choice : String) : Prop :=
  ∃ before body after parts part, FirstGroup name before body after ∧
    choices body = .ok parts ∧ part ∈ parts ∧ choice = textOf part

/-- The second text is one of those that are expanded in order to expand the first. -/
def Calls (caller called : String) : Prop :=
  IsRest caller called ∨ IsChoice caller called

theorem Calls.openings_lt {caller called : String} (h : Calls caller called) :
    openings (ofText called.toList) < openings (ofText caller.toList) := by
  rcases h with ⟨before, body, after, hgroup, rfl⟩ |
    ⟨before, body, after, parts, part, hgroup, hparts, hpart, rfl⟩
  · rw [hgroup.ofText_after, hgroup.glyphs, openings_group]
    omega
  · have hle : openings part ≤ openings body :=
      (openings_le_of_mem hpart).trans (totalOpenings_choices hparts)
    rw [hgroup.ofText_part hparts hpart, hgroup.glyphs, openings_group]
    omega

theorem wellFounded_calls : WellFounded fun called caller => Calls caller called := by
  apply Subrelation.wf _ (InvImage.wf (fun name => openings (ofText name.toList)) wellFounded_lt)
  intro called caller h
  exact h.openings_lt

theorem IsRest.suffix {name rest : String} (h : IsRest name rest) :
    rest.toList <:+ name.toList := by
  rcases h with ⟨before, body, after, hgroup, rfl⟩
  have htext := congrArg toText hgroup.glyphs
  rw [toText_ofText] at htext
  refine ⟨toText (before ++ opening :: (body ++ [closing])), ?_⟩
  rw [toList_textOf, ← toText_append, htext]
  simp

theorem suffix_of_rests {name rest : String} (h : Relation.ReflTransGen IsRest name rest) :
    rest.toList <:+ name.toList := by
  induction h with
  | refl => exact List.suffix_rfl
  | tail _ hlast ih => exact hlast.suffix.trans ih

/-! ## Names whose ranges can be read -/

structure ReadableRanges (name : String) : Prop where
  line : '\n' ∉ name.toList
  ranges : RangesFit (ofText name.toList)

namespace ReadableRanges

variable {name called : String} {before body after : List Glyph}

theorem line_of_slice (h : ReadableRanges name) {gs : List Glyph}
    (hslice : gs <:+: ofText name.toList) : '\n' ∉ toText gs := by
  intro hmem
  have hname := mem_toText_of_slice hslice hmem
  rw [toText_ofText] at hname
  exact h.line hname

theorem exists_choices (h : ReadableRanges name) (hgroup : FirstGroup name before body after) :
    ∃ parts, choices body = .ok parts :=
  Glob.exists_choices hgroup.balanced (h.ranges.of_slice hgroup.slice_group)
    (h.line_of_slice hgroup.slice_group)

theorem of_rest (h : ReadableRanges name) (hrest : IsRest name called) : ReadableRanges called := by
  rcases hrest with ⟨before, body, after, hgroup, rfl⟩
  constructor
  · rw [toList_textOf]
    exact h.line_of_slice hgroup.slice_after
  · rw [hgroup.ofText_after]
    exact h.ranges.of_slice hgroup.slice_after

theorem of_choice (h : ReadableRanges name) (hchoice : IsChoice name called) :
    ReadableRanges called := by
  have hadded : ∀ g ∈ addedGlyphs, '\n' ∉ g.chars := by decide
  rcases hchoice with ⟨before, body, after, parts, part, hgroup, hparts, hpart, rfl⟩
  constructor
  · rw [toList_textOf]
    intro hmem
    rcases List.mem_flatMap.mp hmem with ⟨g, hg, hc⟩
    rcases mem_of_mem_choices hgroup.balanced hparts hpart hg with hinside | hnew
    · exact h.line_of_slice hgroup.slice_body (mem_toText hinside hc)
    · exact hadded g hnew hc
  · rw [hgroup.ofText_part hparts hpart]
    exact (h.ranges.of_slice hgroup.slice_body).of_mem_choices hgroup.balanced hparts hpart

theorem of_calls (h : ReadableRanges name) (hcalls : Relation.ReflTransGen Calls name called) :
    ReadableRanges called := by
  induction hcalls with
  | refl => exact h
  | tail _ hlast ih =>
      rcases hlast with hrest | hchoice
      · exact ih.of_rest hrest
      · exact ih.of_choice hchoice

theorem exists_expansions_of_choice (h : ReadableRanges name) (hchoice : IsChoice name called) :
    ∃ globs, expansions called = .ok globs := by
  have hcalled := h.of_choice hchoice
  rcases hchoice with ⟨before, body, after, parts, part, hgroup, hparts, hpart, rfl⟩
  have hmatched : ¬ HasUnmatched part :=
    not_hasUnmatched_of_choices hgroup.balanced hparts part hpart
  have hline := hcalled.line
  have hranges := hcalled.ranges
  rw [toList_textOf] at hline
  rw [hgroup.ofText_part hparts hpart] at hranges
  rcases (exists_expand_iff hline).mpr ⟨hmatched, hranges⟩ with ⟨es, hes⟩
  rw [expansions_textOf (hgroup.ofText_part hparts hpart), hes]
  exact ⟨_, rfl⟩

end ReadableRanges

/-! ## Where an error comes from -/

namespace ReadableRanges

variable {name rest : String} {e : GlobError}

theorem expansions_of_rest_error (h : ReadableRanges name) (hrest : IsRest name rest)
    (he : expansions rest = .error e) : expansions name = .error e := by
  rcases hrest with ⟨before, body, after, hgroup, rfl⟩
  rcases h.exists_choices hgroup with ⟨parts, hparts⟩
  rw [hgroup.expansions_eq, hparts, he]
  rfl

theorem rest_error_of_expansions (h : ReadableRanges name) {before body after : List Glyph}
    (hgroup : FirstGroup name before body after) (he : expansions name = .error e) :
    expansions (textOf after) = .error e := by
  rw [hgroup.expansions_eq] at he
  rcases bind_eq_error_iff.mp he with hchoices | ⟨parts, hparts, he⟩
  · rcases h.exists_choices hgroup with ⟨parts, hparts⟩
    rw [hchoices] at hparts
    cases hparts
  rcases bind_eq_error_iff.mp he with hafter | ⟨tails, -, he⟩
  · exact hafter
  rcases bind_eq_error_iff.mp he with hheads | ⟨heads, -, he⟩
  · have heach := map_flatten_mapM_expansions fun part => hgroup.ofText_part hparts
    rw [hheads] at heach
    rcases exists_of_expandEach_error (map_eq_error_iff.mp heach.symm) with
      ⟨part, hpart, hfault⟩
    rcases h.exists_expansions_of_choice ⟨_, _, _, _, part, hgroup, hparts, hpart, rfl⟩ with
      ⟨globs, hglobs⟩
    rw [expansions_textOf (hgroup.ofText_part hparts hpart), hfault] at hglobs
    cases hglobs
  · cases he

theorem expansions_eq_error_iff (h : ReadableRanges name) :
    expansions name = .error e ↔
      ∃ rest, Relation.ReflTransGen IsRest name rest ∧ FirstUnclosed rest ∧
        e = .unmatchedBrace rest := by
  constructor
  · intro he
    -- What is behind the first group is called for, so that the reason of its error is known.
    induction name using wellFounded_calls.induction with
    | _ name ih =>
        rcases firstGroup_cases name with hnone | hunclosed | ⟨before, body, after, hgroup⟩
        · rw [expansions_of_opening_not_mem hnone] at he
          cases he
        · rw [hunclosed.expansions_eq] at he
          cases he
          exact ⟨name, .refl, hunclosed, rfl⟩
        · have hrest : IsRest name (textOf after) := ⟨before, body, after, hgroup, rfl⟩
          rcases ih (textOf after) (.inl hrest) (h.of_rest hrest)
            (h.rest_error_of_expansions hgroup he) with ⟨rest, hrests, hunclosed, rfl⟩
          exact ⟨rest, .head hrest hrests, hunclosed, rfl⟩
  · intro herror
    rcases herror with ⟨rest, hrests, hunclosed, rfl⟩
    induction hrests using Relation.ReflTransGen.head_induction_on with
    | refl => exact hunclosed.expansions_eq
    | head hfirst _ ih => exact h.expansions_of_rest_error hfirst (ih (h.of_rest hfirst))

end ReadableRanges

/-! ## The parts of a group, put together again -/

theorem toText_intercalate (parts : List (List Glyph)) :
    toText ([comma].intercalate parts) = [','].intercalate (parts.map toText) := by
  induction parts with
  | nil => rfl
  | cons part parts ih =>
      cases parts with
      | nil => rw [List.intercalate_singleton, List.map_singleton, List.intercalate_singleton]
      | cons next parts =>
          rw [List.intercalate_cons_cons, List.map_cons, List.map_cons,
            List.intercalate_cons_cons, toText_append, toText_append, ih, List.map_cons]
          rfl

theorem intercalate_alternatives {body : List Glyph} (h : Balanced true body) :
    String.intercalate "," ((alternatives 0 body).map textOf) = textOf body := by
  have hparts : (alternatives 0 body).map (String.toList ∘ textOf) =
      (alternatives 0 body).map toText :=
    List.map_congr_left fun part _ => toList_textOf part
  apply String.toList_injective
  rw [String.toList_intercalate, List.map_map, hparts, toList_textOf]
  show [','].intercalate ((alternatives 0 body).map toText) = toText body
  rw [← toText_intercalate, alternatives_of_balanced h]

/-! ## The recursion ends -/

theorem exists_longer_call :
    ∃ called, Calls "\x7bx\x7d" called ∧ "\x7bx\x7d".length < called.length := by
  have hbody : Balanced true [plain 'x'] := .of_not_mem (by decide) (by decide)
  have hgroup : FirstGroup "\x7bx\x7d" [] [plain 'x'] [] := ⟨by decide, by decide, hbody⟩
  have hchoices : choices [plain 'x'] =
      .ok [[escaped '\x7b', plain 'x', escaped '\x7d']] := by
    decide
  exact ⟨_, .inr ⟨_, _, _, _, _, hgroup, hchoices, List.mem_singleton_self _, rfl⟩, by decide⟩

/-- Expansion of a name ends: it calls for the expansion of other texts, which may be longer
but have fewer opening braces. For a name in one line whose ranges can be read, what a group
stands for is never refused, so that an error is about the name or what is left of it behind
some of its groups. The alternatives of a group make up its body, and what comes out is not
expanded any further. -/
theorem expansions_end_in_normal_form (name : String) (hline : '\n' ∉ name.toList)
    (hfit : RangesFit (ofText name.toList)) :
    (∀ caller, (opening ∉ ofText caller.toList ∧ expansions caller = .ok [caller]) ∨
      (FirstUnclosed caller ∧ expansions caller = .error (.unmatchedBrace caller)) ∨
      ∃ before body after, FirstGroup caller before body after ∧
        expansions caller = do
          let parts ← choices body
          let tails ← expansions (textOf after)
          let heads ← parts.mapM fun part => expansions (textOf part)
          return heads.flatten.flatMap fun head =>
            tails.map fun tail => textOf before ++ (head ++ tail)) ∧
    (∀ caller called, Calls caller called →
      openings (ofText called.toList) < openings (ofText caller.toList)) ∧
    WellFounded (fun called caller => Calls caller called) ∧
    (∃ called, Calls "\x7bx\x7d" called ∧ "\x7bx\x7d".length < called.length) ∧
    (∀ caller choice, Relation.ReflTransGen Calls name caller → IsChoice caller choice →
      ∃ globs, expansions choice = .ok globs) ∧
    (∀ e, expansions name = .error e ↔
      ∃ rest, Relation.ReflTransGen IsRest name rest ∧ rest.toList <:+ name.toList ∧
        FirstUnclosed rest ∧ e = .unmatchedBrace rest) ∧
    (∀ caller before body after, FirstGroup caller before body after →
      String.intercalate "," ((alternatives 0 body).map textOf) = textOf body) ∧
    ∀ globs, expansions name = .ok globs → ∀ glob ∈ globs, expansions glob = .ok [glob] := by
  have hname : ReadableRanges name := ⟨hline, hfit⟩
  refine ⟨expansions_cases, ?_, wellFounded_calls, exists_longer_call, ?_, ?_, ?_, ?_⟩
  · intro caller called hcalls
    exact hcalls.openings_lt
  · intro caller choice hcalls hchoice
    exact (hname.of_calls hcalls).exists_expansions_of_choice hchoice
  · intro e
    rw [hname.expansions_eq_error_iff]
    constructor
    · intro herror
      rcases herror with ⟨rest, hrests, hunclosed, rfl⟩
      exact ⟨rest, hrests, suffix_of_rests hrests, hunclosed, rfl⟩
    · intro herror
      rcases herror with ⟨rest, hrests, -, hunclosed, rfl⟩
      exact ⟨rest, hrests, hunclosed, rfl⟩
  · intro caller before body after hgroup
    exact intercalate_alternatives hgroup.balanced
  · intro globs hglobs glob hglob
    exact expansions_of_mem_expansions hglobs hglob

/-- A group in a group, a range behind them, and at the end a brace that is not closed: the
error is about what is behind the range. -/
theorem expansions_end_in_normal_form_of_open_end :
    '\n' ∉ "\x7ba,\x7bx\x7d\x7d\x7b1..2\x7d\x7bb".toList ∧
    RangesFit (ofText "\x7ba,\x7bx\x7d\x7d\x7b1..2\x7d\x7bb".toList) ∧
    ∃ rest, Relation.ReflTransGen IsRest "\x7ba,\x7bx\x7d\x7d\x7b1..2\x7d\x7bb" rest ∧
      FirstUnclosed rest ∧ rest = "\x7bb" := by
  have hline : '\n' ∉ "\x7ba,\x7bx\x7d\x7d\x7b1..2\x7d\x7bb".toList := by decide
  have hfit : RangesFit (ofText "\x7ba,\x7bx\x7d\x7d\x7b1..2\x7d\x7bb".toList) := by
    apply RangesFit.of_length_le
    decide
  have herror : expansions "\x7ba,\x7bx\x7d\x7d\x7b1..2\x7d\x7bb" =
      .error (.unmatchedBrace "\x7bb") := by
    cbv
  rcases expansions_end_in_normal_form _ hline hfit with ⟨-, -, -, -, -, herrors, -, -⟩
  rcases (herrors _).mp herror with ⟨rest, hrests, -, hunclosed, heq⟩
  cases heq
  exact ⟨hline, hfit, "\x7bb", hrests, hunclosed, rfl⟩

end Glob
end FileStyle
