import FileStyle.Glob.Pattern
import FileStyle.Proofs.Outcome

/-!
# How a text spells a pattern

A text spells a pattern when it can be cut, from left to right, into the written forms of
the atoms. Several forms start alike: a star, two stars and a separator before two stars,
or a bracket that opens a class and one that does not. Each rule below says by itself when
it applies, and reading a text follows the rules.
-/

namespace FileStyle
namespace Glob

/-! ## Classes -/

/-- The text between the brackets of a class: the body, after an exclamation mark or a
caret if the class is negated. -/
inductive ClassText : List Char → Bool → List Char → Prop where
  | plain {body : List Char} (hmark : body.head? ≠ some '!') (hcaret : body.head? ≠ some '^') :
      ClassText body false body
  | marked (body : List Char) : ClassText ('!' :: body) true body
  | careted (body : List Char) : ClassText ('^' :: body) true body

/-- No class starts behind an opening bracket that is never closed, or whose class would
have no body. -/
def OpensNoClass (s : List Char) : Prop :=
  ']' ∉ s ∨ ∃ text ∈ [[], ['!'], ['^']], ∃ after, s = text ++ ']' :: after

theorem splitNegation_eq_iff {text body : List Char} {negated : Bool} :
    splitNegation text = (negated, body) ↔ ClassText text negated body := by
  constructor
  · intro h
    unfold splitNegation at h
    split at h
    · cases h
      exact .marked body
    · cases h
      exact .careted body
    · next hmark hcaret =>
        cases h
        refine .plain ?_ ?_
        · intro hhead
          rcases List.head?_eq_some_iff.mp hhead with ⟨rest, hrest⟩
          exact hmark rest hrest
        · intro hhead
          rcases List.head?_eq_some_iff.mp hhead with ⟨rest, hrest⟩
          exact hcaret rest hrest
  · intro h
    cases h with
    | plain hmark hcaret =>
        unfold splitNegation
        split
        · exact absurd rfl hmark
        · exact absurd rfl hcaret
        · rfl
    | marked => rfl
    | careted => rfl

theorem splitClass_of_not_mem {s : List Char} (h : ']' ∉ s) : splitClass s = none := by
  simp [splitClass, h]

theorem splitClass_append {text : List Char} (h : ']' ∉ text) (after : List Char) :
    splitClass (text ++ ']' :: after) =
      if (splitNegation text).2 = [] then
        none
      else
        some ((splitNegation text).1, (splitNegation text).2, after) := by
  have hinside : ∀ c ∈ text, decide (c ≠ ']') = true := by
    intro c hc
    have hne : c ≠ ']' := fun heq => h (heq ▸ hc)
    simpa using hne
  have htake : (text ++ ']' :: after).takeWhile (· ≠ ']') = text := by
    rw [List.takeWhile_append_of_pos hinside]
    simp
  have hdrop : (text ++ ']' :: after).dropWhile (· ≠ ']') = ']' :: after := by
    rw [List.dropWhile_append_of_pos hinside]
    simp
  simp only [splitClass, htake, hdrop, List.tail_cons]
  by_cases hbody : (splitNegation text).2 = []
  · simp [hbody]
  · simp [hbody]

theorem splitClass_eq_some_iff {s body after : List Char} {negated : Bool} :
    splitClass s = some (negated, body, after) ↔
      ∃ text, s = text ++ ']' :: after ∧ ']' ∉ text ∧ ClassText text negated body ∧
        body ≠ [] := by
  constructor
  · intro h
    by_cases hclosed : ']' ∈ s
    · rcases List.eq_append_cons_of_mem hclosed with ⟨text, rest, rfl, htext⟩
      rw [splitClass_append htext] at h
      split at h
      · cases h
      · next hbody =>
          cases h
          exact ⟨text, rfl, htext, splitNegation_eq_iff.mp rfl, hbody⟩
    · rw [splitClass_of_not_mem hclosed] at h
      cases h
  · intro h
    rcases h with ⟨text, rfl, htext, hclass, hbody⟩
    rw [splitClass_append htext, splitNegation_eq_iff.mpr hclass, if_neg hbody]

theorem splitClass_eq_none_iff {s : List Char} : splitClass s = none ↔ OpensNoClass s := by
  constructor
  · intro h
    by_cases hclosed : ']' ∈ s
    · rcases List.eq_append_cons_of_mem hclosed with ⟨text, rest, rfl, htext⟩
      rw [splitClass_append htext] at h
      split at h
      · next hbody =>
          refine .inr ⟨text, ?_, rest, rfl⟩
          obtain ⟨negated, hnegated⟩ : ∃ negated, splitNegation text = (negated, []) :=
            ⟨(splitNegation text).1, by rw [← hbody]⟩
          cases splitNegation_eq_iff.mp hnegated with
          | plain => simp
          | marked => simp
          | careted => simp
      · cases h
    · exact .inl hclosed
  · intro h
    rcases h with hopen | ⟨text, htext, after, rfl⟩
    · exact splitClass_of_not_mem hopen
    · have hcases : text = [] ∨ text = ['!'] ∨ text = ['^'] := by simpa using htext
      rcases hcases with rfl | rfl | rfl
      · exact splitClass_append (by simp) after
      · exact splitClass_append (by decide) after
      · exact splitClass_append (by decide) after

/-! ## Patterns -/

namespace Pattern

inductive SpelledBy : Pattern → List Char → Prop where
  | nil : SpelledBy [] []
  | escaped {p : Pattern} {s : List Char} (c : Char) (h : SpelledBy p s) :
      SpelledBy (.literal c :: p) ('\\' :: c :: s)
  | deepSeparator {p : Pattern} {s : List Char} (h : SpelledBy p s) :
      SpelledBy (.deepSeparator :: p) ('/' :: '*' :: '*' :: '/' :: s)
  | anything {p : Pattern} {s : List Char} (h : SpelledBy p s) :
      SpelledBy (.anything :: p) ('*' :: '*' :: s)
  | run {p : Pattern} {s : List Char} (hstar : s.head? ≠ some '*') (h : SpelledBy p s) :
      SpelledBy (.run :: p) ('*' :: s)
  | single {p : Pattern} {s : List Char} (h : SpelledBy p s) :
      SpelledBy (.single :: p) ('?' :: s)
  /-- A class ends at the first closing bracket. Nothing in it is escaped. -/
  | oneOf {p : Pattern} {s text body : List Char} {negated : Bool} {set : CharSet}
      (hclosed : ']' ∉ text) (hclass : ClassText text negated body) (hbody : body ≠ [])
      (hset : CharSet.read negated body = .ok set) (h : SpelledBy p s) :
      SpelledBy (.oneOf set :: p) ('[' :: (text ++ ']' :: s))
  | bracket {p : Pattern} {s : List Char} (hclass : OpensNoClass s) (h : SpelledBy p s) :
      SpelledBy (.literal '[' :: p) ('[' :: s)
  /-- Every other character stands for itself: a backslash at the end, and a separator
  that no double star with another separator follows. -/
  | ordinary {p : Pattern} {s : List Char} {c : Char} (hspecial : c ∉ ['*', '?', '['])
      (hlast : c = '\\' → s = []) (hdeep : c = '/' → ¬ ['*', '*', '/'] <+: s)
      (h : SpelledBy p s) : SpelledBy (.literal c :: p) (c :: s)

theorem read_of_splitClass_none {rest : List Char} (h : splitClass rest = none) :
    read ('[' :: rest) = (read rest).map (.literal '[' :: ·) := by
  rw [read]
  split
  · rfl
  · next hsome =>
      rw [h] at hsome
      cases hsome

theorem read_of_splitClass_some {rest body after : List Char} {negated : Bool}
    (h : splitClass rest = some (negated, body, after)) :
    read ('[' :: rest) =
      CharSet.read negated body >>= fun set => (read after).map (.oneOf set :: ·) := by
  rw [read]
  split
  · next hnone =>
      rw [h] at hnone
      cases hnone
  · next hsome =>
      rw [h] at hsome
      cases hsome
      cases CharSet.read negated body with
      | error e => rfl
      | ok set => rfl

theorem read_of_spelledBy {p : Pattern} {s : List Char} (h : SpelledBy p s) :
    read s = .ok p := by
  induction h with
  | nil => rw [read]
  | escaped c _ ih =>
      rw [read, ih]
      rfl
  | deepSeparator _ ih =>
      rw [read, ih]
      rfl
  | anything _ ih =>
      rw [read, ih]
      rfl
  | run hstar _ ih =>
      rw [read, ih]
      · rfl
      · intro rest hrest
        subst hrest
        exact hstar rfl
  | single _ ih =>
      rw [read, ih]
      rfl
  | @oneOf p s text body negated set hclosed hclass hbody hset _ ih =>
      have hsplit : splitClass (text ++ ']' :: s) = some (negated, body, s) :=
        splitClass_eq_some_iff.mpr ⟨text, rfl, hclosed, hclass, hbody⟩
      rw [read_of_splitClass_some hsplit, hset, ih]
      rfl
  | bracket hclass _ ih =>
      rw [read_of_splitClass_none (splitClass_eq_none_iff.mpr hclass), ih]
      rfl
  | @ordinary p s c hspecial hlast hdeep _ ih =>
      have hne : c ≠ '*' ∧ c ≠ '?' ∧ c ≠ '[' := by simpa using hspecial
      rw [read, ih]
      · rfl
      · intro d rest hc hrest
        subst hrest
        cases hlast hc
      · intro rest hc hrest
        subst hrest
        exact hdeep hc ⟨rest, rfl⟩
      · intro rest hc _
        exact hne.left hc
      · exact hne.left
      · exact hne.right.left
      · exact hne.right.right

theorem spelledBy_of_read {p : Pattern} {s : List Char} (h : read s = .ok p) :
    SpelledBy p s := by
  fun_induction read s generalizing p with
  | case1 =>
      cases h
      exact .nil
  | case2 c rest ih =>
      rcases map_eq_ok_iff.mp h with ⟨q, hq, rfl⟩
      exact .escaped c (ih hq)
  | case3 rest ih =>
      rcases map_eq_ok_iff.mp h with ⟨q, hq, rfl⟩
      exact .deepSeparator (ih hq)
  | case4 rest ih =>
      rcases map_eq_ok_iff.mp h with ⟨q, hq, rfl⟩
      exact .anything (ih hq)
  | case5 rest hstar ih =>
      rcases map_eq_ok_iff.mp h with ⟨q, hq, rfl⟩
      refine .run ?_ (ih hq)
      intro hhead
      rcases List.head?_eq_some_iff.mp hhead with ⟨more, hmore⟩
      exact hstar more hmore
  | case6 rest ih =>
      rcases map_eq_ok_iff.mp h with ⟨q, hq, rfl⟩
      exact .single (ih hq)
  | case7 rest hsplit ih =>
      rcases map_eq_ok_iff.mp h with ⟨q, hq, rfl⟩
      exact .bracket (splitClass_eq_none_iff.mp hsplit) (ih hq)
  | case8 rest negated body after hsplit e hset => cases h
  | case9 rest negated body after hsplit set hset ih =>
      rcases map_eq_ok_iff.mp h with ⟨q, hq, rfl⟩
      rcases splitClass_eq_some_iff.mp hsplit with ⟨text, rfl, hclosed, hclass, hbody⟩
      exact .oneOf hclosed hclass hbody hset (ih hq)
  | case10 c rest hback hdeep hdouble hstar hmark hbracket ih =>
      rcases map_eq_ok_iff.mp h with ⟨q, hq, rfl⟩
      refine .ordinary ?_ ?_ ?_ (ih hq)
      · intro hmem
        have hcases : c = '*' ∨ c = '?' ∨ c = '[' := by simpa using hmem
        rcases hcases with hc | hc | hc
        · exact hstar hc
        · exact hmark hc
        · exact hbracket hc
      · intro hc
        cases rest with
        | nil => rfl
        | cons d more => exact (hback d more hc rfl).elim
      · intro hc hstars
        rcases hstars with ⟨more, hmore⟩
        exact hdeep more hc hmore.symm

theorem read_eq_ok_iff {p : Pattern} {s : List Char} : read s = .ok p ↔ SpelledBy p s :=
  ⟨spelledBy_of_read, read_of_spelledBy⟩

end Pattern
end Glob
end FileStyle
