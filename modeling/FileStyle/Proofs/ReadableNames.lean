import FileStyle.Proofs.Expandable
import FileStyle.Proofs.PatternText
import FileStyle.Proofs.SectionMatch

/-!
# Section names that can be read

Three things can be wrong with a section name: an opening brace without a partner, an
integer range with a bound of too many digits, and in one of its expansions a range of
characters that runs downward. A name in one line can be read exactly when it is free of
all three, and when it is free of the last two only an unmatched brace can be reported.
-/

namespace FileStyle

/-!
## Ranges that run downward

A text without groups is a pattern unless one of its classes has a range of characters that
runs downward. The classes of a text and the ranges of a class are told by rules from left
to right: a class ends at its first closing bracket, an escaped bracket opens none, and a
hyphen makes a range only between two characters that no other range has used.
-/

namespace Glob

/-! ### Class bodies -/

inductive RunsDown (first last : Char) : List Char → Prop where
  | here {rest : List Char} (h : last < first) : RunsDown first last (first :: '-' :: last :: rest)
  | range {a b : Char} {rest : List Char} (hup : a ≤ b) (h : RunsDown first last rest) :
      RunsDown first last (a :: '-' :: b :: rest)
  | single {c : Char} {rest : List Char} (hhyphen : ∀ b more, rest ≠ '-' :: b :: more)
      (h : RunsDown first last rest) : RunsDown first last (c :: rest)

namespace CharSet

theorem runsDown_of_readRanges {body : List Char} {e : GlobError}
    (h : readRanges body = .error e) :
    ∃ first last, RunsDown first last body ∧ e = .descendingRange first last := by
  fun_induction readRanges body with
  | case1 => cases h
  | case2 first last rest hdown =>
      cases h
      exact ⟨first, last, .here hdown, rfl⟩
  | case3 first last rest hup ih =>
      rcases ih (map_eq_error_iff.mp h) with ⟨a, b, hrest, rfl⟩
      exact ⟨a, b, .range (Char.not_lt.mp hup) hrest, rfl⟩
  | case4 c rest hhyphen ih =>
      rcases ih (map_eq_error_iff.mp h) with ⟨a, b, hrest, rfl⟩
      exact ⟨a, b, .single hhyphen hrest, rfl⟩

theorem readRanges_of_runsDown {body : List Char} {first last : Char}
    (h : RunsDown first last body) :
    readRanges body = .error (.descendingRange first last) := by
  induction h with
  | here h => rw [readRanges, if_pos h]
  | range hup _ ih =>
      rw [readRanges, if_neg (Char.not_lt.mpr hup)]
      exact map_eq_error_iff.mpr ih
  | single hhyphen _ ih =>
      rw [readRanges]
      · exact map_eq_error_iff.mpr ih
      · exact hhyphen

/-- The text whose ranges a class has: the separator is put in front of a negated body. -/
def rangeText (negated : Bool) (body : List Char) : List Char :=
  if negated then '/' :: body else body

theorem read_eq_error_iff {negated : Bool} {body : List Char} {e : GlobError} :
    read negated body = .error e ↔
      ∃ first last, RunsDown first last (rangeText negated body) ∧
        e = .descendingRange first last := by
  constructor
  · intro h
    exact runsDown_of_readRanges (map_eq_error_iff.mp h)
  · intro h
    rcases h with ⟨first, last, hdown, rfl⟩
    exact map_eq_error_iff.mpr (readRanges_of_runsDown hdown)

end CharSet

/-! ### The classes of a text -/

inductive HasClass (negated : Bool) (body : List Char) : List Char → Prop where
  | here {text s : List Char} (hclosed : ']' ∉ text) (hclass : ClassText text negated body)
      (hbody : body ≠ []) : HasClass negated body ('[' :: (text ++ ']' :: s))
  | class {text body' s : List Char} {negated' : Bool} (hclosed : ']' ∉ text)
      (hclass : ClassText text negated' body') (hbody : body' ≠ [])
      (h : HasClass negated body s) : HasClass negated body ('[' :: (text ++ ']' :: s))
  | bracket {s : List Char} (hclass : OpensNoClass s) (h : HasClass negated body s) :
      HasClass negated body ('[' :: s)
  | escaped {s : List Char} (c : Char) (h : HasClass negated body s) :
      HasClass negated body ('\\' :: c :: s)
  | ordinary {c : Char} {s : List Char} (hc : c ∉ ['[', '\\']) (h : HasClass negated body s) :
      HasClass negated body (c :: s)

namespace HasClass

variable {negated : Bool} {body s : List Char}

theorem ordinary_iff {c : Char} (hc : c ∉ ['[', '\\']) :
    HasClass negated body (c :: s) ↔ HasClass negated body s := by
  constructor
  · intro h
    cases h with
    | here => exact absurd (by simp) hc
    | «class» => exact absurd (by simp) hc
    | bracket => exact absurd (by simp) hc
    | escaped => exact absurd (by simp) hc
    | ordinary _ h => exact h
  · exact .ordinary hc

theorem escaped_iff {c : Char} :
    HasClass negated body ('\\' :: c :: s) ↔ HasClass negated body s := by
  constructor
  · intro h
    cases h with
    | escaped _ h => exact h
    | ordinary hc => exact absurd (by simp) hc
  · exact .escaped c

theorem bracket_iff :
    HasClass negated body ('[' :: s) ↔
      match splitClass s with
      | none => HasClass negated body s
      | some (negated', body', after) =>
          (negated' = negated ∧ body' = body) ∨ HasClass negated body after := by
  constructor
  · intro h
    cases h with
    | @here text after hclosed hclass hbody =>
        rw [splitClass_eq_some_iff.mpr ⟨text, rfl, hclosed, hclass, hbody⟩]
        exact .inl ⟨rfl, rfl⟩
    | @«class» text body' after negated' hclosed hclass hbody h =>
        rw [splitClass_eq_some_iff.mpr ⟨text, rfl, hclosed, hclass, hbody⟩]
        exact .inr h
    | bracket hclass h =>
        rw [splitClass_eq_none_iff.mpr hclass]
        exact h
    | ordinary hc => exact absurd (by simp) hc
  · intro h
    split at h
    · next hsplit => exact .bracket (splitClass_eq_none_iff.mp hsplit) h
    · next negated' body' after hsplit =>
        rcases splitClass_eq_some_iff.mp hsplit with ⟨text, rfl, hclosed, hclass, hbody⟩
        rcases h with ⟨rfl, rfl⟩ | h
        · exact .here hclosed hclass hbody
        · exact .class hclosed hclass hbody h

end HasClass

def HasDescent (s : List Char) : Prop :=
  ∃ negated body, HasClass negated body s ∧
    ∃ first last, RunsDown first last (CharSet.rangeText negated body)

namespace HasDescent

variable {s : List Char}

theorem not_nil : ¬ HasDescent [] := by
  intro h
  rcases h with ⟨_, _, hclass, _⟩
  cases hclass

theorem ordinary_iff {c : Char} (hc : c ∉ ['[', '\\']) :
    HasDescent (c :: s) ↔ HasDescent s := by
  simp only [HasDescent, HasClass.ordinary_iff hc]

theorem escaped_iff {c : Char} : HasDescent ('\\' :: c :: s) ↔ HasDescent s := by
  simp only [HasDescent, HasClass.escaped_iff]

theorem bracket_iff_of_none (h : splitClass s = none) :
    HasDescent ('[' :: s) ↔ HasDescent s := by
  simp only [HasDescent, HasClass.bracket_iff, h]

theorem bracket_iff_of_some {negated : Bool} {body after : List Char}
    (h : splitClass s = some (negated, body, after)) :
    HasDescent ('[' :: s) ↔
      (∃ e, CharSet.read negated body = .error e) ∨ HasDescent after := by
  simp only [HasDescent, HasClass.bracket_iff, h, CharSet.read_eq_error_iff]
  constructor
  · intro hdescent
    rcases hdescent with ⟨negated', body', ⟨rfl, rfl⟩ | hclass, first, last, hdown⟩
    · exact .inl ⟨_, first, last, hdown, rfl⟩
    · exact .inr ⟨negated', body', hclass, first, last, hdown⟩
  · intro hdescent
    rcases hdescent with ⟨_, first, last, hdown, -⟩ | ⟨negated', body', hclass, hdown⟩
    · exact ⟨negated, body, .inl ⟨rfl, rfl⟩, first, last, hdown⟩
    · exact ⟨negated', body', .inr hclass, hdown⟩

end HasDescent

/-! ### Patterns -/

namespace Pattern

/-- Reading fails exactly on the texts with a range that runs downward. Stars and separators
are passed over one by one, since none of them opens a class. -/
theorem read_fails_iff {s : List Char} : (∃ e, read s = .error e) ↔ HasDescent s := by
  fun_induction read s with
  | case1 =>
      constructor
      · intro h
        rcases h with ⟨e, he⟩
        cases he
      · intro h
        exact absurd h HasDescent.not_nil
  | case2 c rest ih => rw [exists_map_error_iff, ih, HasDescent.escaped_iff]
  | case3 rest ih =>
      rw [exists_map_error_iff, ih, HasDescent.ordinary_iff (by decide),
        HasDescent.ordinary_iff (by decide), HasDescent.ordinary_iff (by decide),
        HasDescent.ordinary_iff (by decide)]
  | case4 rest ih =>
      rw [exists_map_error_iff, ih, HasDescent.ordinary_iff (by decide),
        HasDescent.ordinary_iff (by decide)]
  | case5 rest _ ih =>
      rw [exists_map_error_iff, ih, HasDescent.ordinary_iff (by decide)]
  | case6 rest ih =>
      rw [exists_map_error_iff, ih, HasDescent.ordinary_iff (by decide)]
  | case7 rest hsplit ih =>
      rw [exists_map_error_iff, ih, HasDescent.bracket_iff_of_none hsplit]
  | case8 rest negated body after hsplit e hset =>
      rw [HasDescent.bracket_iff_of_some hsplit]
      exact iff_of_true ⟨e, rfl⟩ (.inl ⟨e, hset⟩)
  | case9 rest negated body after hsplit set hset ih =>
      rw [exists_map_error_iff, ih, HasDescent.bracket_iff_of_some hsplit, hset, or_iff_right]
      intro h
      rcases h with ⟨e, he⟩
      cases he
  | case10 c rest hback _ _ _ _ hbracket ih =>
      rw [exists_map_error_iff, ih]
      by_cases hc : c = '\\'
      -- Only at the end is a backslash read by itself, and there is no class behind it.
      · cases rest with
        | nil =>
            rw [hc]
            refine iff_of_false HasDescent.not_nil ?_
            intro h
            rcases h with ⟨_, _, hclass, _⟩
            cases hclass with
            | ordinary hc => exact absurd (by simp) hc
        | cons d more => exact (hback d more hc rfl).elim
      · have hordinary : c ∉ ['[', '\\'] := by
          intro hmem
          rcases List.mem_cons.mp hmem with heq | hmem
          · exact hbracket heq
          · exact hc (List.mem_singleton.mp hmem)
        exact (HasDescent.ordinary_iff hordinary).symm

theorem reads_iff {s : List Char} : (∃ p, read s = .ok p) ↔ ¬ HasDescent s := by
  rw [exists_ok_iff, read_fails_iff]

theorem eq_descendingRange_of_read {s : List Char} {e : GlobError} (h : read s = .error e) :
    ∃ first last, e = .descendingRange first last := by
  fun_induction read s with
  | case1 => cases h
  | case2 c rest ih => exact ih (map_eq_error_iff.mp h)
  | case3 rest ih => exact ih (map_eq_error_iff.mp h)
  | case4 rest ih => exact ih (map_eq_error_iff.mp h)
  | case5 rest _ ih => exact ih (map_eq_error_iff.mp h)
  | case6 rest ih => exact ih (map_eq_error_iff.mp h)
  | case7 rest _ ih => exact ih (map_eq_error_iff.mp h)
  | case8 rest negated body after _ fault hset =>
      cases h
      rcases CharSet.read_eq_error_iff.mp hset with ⟨first, last, -, rfl⟩
      exact ⟨first, last, rfl⟩
  | case9 rest negated body after _ set _ ih => exact ih (map_eq_error_iff.mp h)
  | case10 c rest _ _ _ _ _ _ ih => exact ih (map_eq_error_iff.mp h)

end Pattern
open Glyph

/-! ## What can be wrong with a name -/

/-- A section name in which nothing is wrong but braces without a partner: no bound of an
integer range is too long, and no class in an expansion has a range that runs downward. -/
structure Sound (name : String) : Prop where
  ranges : RangesFit (ofText (globOf name.toList))
  classes : ∀ es, Expands (ofText (globOf name.toList)) es → ∀ e ∈ es, ¬ HasDescent (toText e)

theorem globOf_suffix (name : List Char) : globOf name <:+ name := by
  have hroot : withoutRoot name <:+ name := by
    unfold withoutRoot
    split
    · exact List.suffix_cons _ _
    · exact List.suffix_rfl
  unfold globOf
  split
  · next rest hrest =>
      rw [hrest] at hroot
      exact (List.suffix_append ['*', '*', '/'] rest).trans hroot
  · exact hroot

namespace Matcher

variable {name : String}

theorem readPatterns_reads_iff {globs : List (List Glyph)} :
    (∃ ps, readPatterns globs = .ok ps) ↔ ∀ glob ∈ globs, ¬ HasDescent (toText glob) := by
  induction globs with
  | nil => exact iff_of_true ⟨[], rfl⟩ (by simp)
  | cons glob globs ih =>
      rw [List.forall_mem_cons, ← ih, ← Pattern.reads_iff]
      constructor
      · intro h
        rcases h with ⟨ps, hps⟩
        rcases bind_eq_ok_iff.mp hps with ⟨p, hp, hrest⟩
        rcases bind_eq_ok_iff.mp hrest with ⟨others, hothers, -⟩
        exact ⟨⟨p, hp⟩, others, hothers⟩
      · intro h
        rcases h with ⟨⟨p, hp⟩, ps, hps⟩
        exact ⟨p :: ps, bind_eq_ok_iff.mpr ⟨p, hp, bind_eq_ok_iff.mpr ⟨ps, hps, rfl⟩⟩⟩

theorem eq_descendingRange_of_readPatterns {globs : List (List Glyph)} {e : GlobError}
    (h : readPatterns globs = .error e) : ∃ first last, e = .descendingRange first last := by
  induction globs with
  | nil => cases h
  | cons glob globs ih =>
      rcases bind_eq_error_iff.mp h with hread | ⟨p, -, h⟩
      · exact Pattern.eq_descendingRange_of_read hread
      · rcases bind_eq_error_iff.mp h with hrest | ⟨ps, -, h⟩
        · exact ih hrest
        · cases h

theorem ofName_eq_error_iff {e : GlobError} :
    ofName name = .error e ↔
      expand (ofText (globOf name.toList)) = .error e ∨
        ∃ globs, expand (ofText (globOf name.toList)) = .ok globs ∧
          readPatterns globs = .error e := by
  rw [← anchoring_glob]
  constructor
  · intro h
    rcases bind_eq_error_iff.mp h with hexpand | ⟨globs, hglobs, h⟩
    · exact .inl hexpand
    · rcases bind_eq_error_iff.mp h with hread | ⟨ps, -, h⟩
      · exact .inr ⟨globs, hglobs, hread⟩
      · cases h
  · intro h
    apply bind_eq_error_iff.mpr
    rcases h with hexpand | ⟨globs, hglobs, hread⟩
    · exact .inl hexpand
    · exact .inr ⟨globs, hglobs, bind_eq_error_iff.mpr (.inl hread)⟩

theorem line_of_globOf (hline : '\n' ∉ name.toList) :
    '\n' ∉ toText (ofText (globOf name.toList)) := by
  rw [toText_ofText]
  intro hmem
  exact hline ((globOf_suffix name.toList).mem hmem)

theorem hasUnmatched_of_ofName {rest : String}
    (h : ofName name = .error (.unmatchedBrace rest)) :
    HasUnmatched (ofText (globOf name.toList)) := by
  rcases ofName_eq_error_iff.mp h with hexpand | ⟨globs, -, hread⟩
  · exact hasUnmatched_of_expand hexpand
  · rcases eq_descendingRange_of_readPatterns hread with ⟨first, last, hdown⟩
    cases hdown

theorem ofName_of_sound (hline : '\n' ∉ name.toList) (h : Sound name) :
    (∃ m, ofName name = .ok m) ∨ ∃ rest, ofName name = .error (.unmatchedBrace rest) := by
  have hglob := line_of_globOf hline
  by_cases hunmatched : HasUnmatched (ofText (globOf name.toList))
  · rcases expand_of_hasUnmatched hunmatched h.ranges hglob with ⟨rest, hrest⟩
    exact .inr ⟨rest, ofName_eq_error_iff.mpr (.inl hrest)⟩
  · rcases exists_expands hunmatched h.ranges with ⟨es, hes⟩
    rcases readPatterns_reads_iff.mpr (h.classes es hes) with ⟨ps, hps⟩
    exact .inl ⟨_, ofName_eq_ok_iff.mpr ⟨es, ps, expand_of_expands hes hglob, hps, rfl⟩⟩

/-- A name in one line can be read just when every opening brace has its partner and the
name is sound. -/
theorem ofName_reads_iff (hline : '\n' ∉ name.toList) :
    (∃ m, ofName name = .ok m) ↔
      ¬ HasUnmatched (ofText (globOf name.toList)) ∧ Sound name := by
  have hglob := line_of_globOf hline
  constructor
  · intro h
    rcases h with ⟨m, hm⟩
    rcases ofName_eq_ok_iff.mp hm with ⟨globs, ps, hglobs, hps, -⟩
    rcases (exists_expand_iff hglob).mp ⟨globs, hglobs⟩ with ⟨hmatched, hfit⟩
    refine ⟨hmatched, hfit, ?_⟩
    intro es hes
    have hexpand := expand_of_expands hes hglob
    rw [hglobs] at hexpand
    cases hexpand
    exact readPatterns_reads_iff.mp ⟨ps, hps⟩
  · intro h
    rcases h with ⟨hmatched, hsound⟩
    rcases ofName_of_sound hline hsound with hok | ⟨rest, hrest⟩
    · exact hok
    · exact absurd (hasUnmatched_of_ofName hrest) hmatched

end Matcher
end Glob

end FileStyle
