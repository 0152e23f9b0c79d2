import FileStyle.Glob.Pattern
import Mathlib.Data.List.Forall2
import Mathlib.Data.List.Infix

/-!
# What a pattern matches

A pattern matches a text that can be cut into slices, one for each atom. Marks are shown
to tell exactly this of every tail of the text: each pass over the text turns what the
marks tell of the rest of a pattern into what they tell of the pattern with one more
atom in front.
-/

namespace FileStyle
namespace Glob

/-! ## Slices -/

def Atom.Matches : Atom → List Char → Prop
  | .literal c, slice => slice = [c]
  | .deepSeparator, slice => slice = ['/'] ∨ ∃ between, slice = '/' :: (between ++ ['/'])
  | .anything, _ => True
  | .run, slice => '/' ∉ slice
  | .single, slice => ∃ c, c ≠ '/' ∧ slice = [c]
  | .oneOf set, slice => ∃ c, set.has c = true ∧ slice = [c]

/-- A text is matched when it can be cut into consecutive slices, which the atoms match
one by one. -/
def Pattern.Matches (p : Pattern) (s : List Char) : Prop :=
  ∃ slices, List.Forall₂ Atom.Matches p slices ∧ slices.flatten = s

namespace Pattern

theorem matches_nil_iff {s : List Char} : Pattern.Matches [] s ↔ s = [] := by
  constructor
  · intro h
    rcases h with ⟨slices, hslices, rfl⟩
    cases hslices
    rfl
  · intro heq
    rw [heq]
    exact ⟨[], .nil, rfl⟩

theorem matches_cons_iff {a : Atom} {p : Pattern} {s : List Char} :
    Pattern.Matches (a :: p) s ↔
      ∃ slice rest, s = slice ++ rest ∧ a.Matches slice ∧ p.Matches rest := by
  constructor
  · intro h
    rcases h with ⟨slices, hslices, rfl⟩
    cases hslices with
    | @cons _ slice _ others ha hp =>
        exact ⟨slice, others.flatten, rfl, ha, others, hp, rfl⟩
  · intro h
    rcases h with ⟨slice, rest, rfl, ha, others, hp, rfl⟩
    exact ⟨slice :: others, .cons ha hp, rfl⟩

end Pattern

/-! ## What marks tell -/

namespace Marks

def Tell (P : List Char → Prop) (s : List Char) (marks : Marks) : Prop :=
  List.Forall₂ (fun mark tail => mark = true ↔ P tail) marks s.tails

variable {P Q : List Char → Prop} {s : List Char} {marks : Marks}

theorem tell_nil_iff : Tell P [] marks ↔ ∃ mark, marks = [mark] ∧ (mark = true ↔ P []) := by
  constructor
  · intro h
    cases h with
    | @cons mark _ _ _ hmark hnone =>
        cases hnone
        exact ⟨mark, rfl, hmark⟩
  · intro h
    rcases h with ⟨mark, rfl, hmark⟩
    exact .cons hmark .nil

theorem tell_cons_iff {c : Char} :
    Tell P (c :: s) marks ↔
      ∃ mark below, marks = mark :: below ∧ (mark = true ↔ P (c :: s)) ∧ Tell P s below := by
  constructor
  · intro h
    rw [Tell, List.tails_cons] at h
    cases h with
    | @cons mark _ below _ hmark hbelow => exact ⟨mark, below, rfl, hmark, hbelow⟩
  · intro h
    rcases h with ⟨mark, below, rfl, hmark, hbelow⟩
    rw [Tell, List.tails_cons]
    exact .cons hmark hbelow

theorem Tell.whole_iff (h : Tell P s marks) : whole marks = true ↔ P s := by
  cases s with
  | nil =>
      rcases tell_nil_iff.mp h with ⟨mark, rfl, hmark⟩
      exact hmark
  | cons c s =>
      rcases tell_cons_iff.mp h with ⟨mark, below, rfl, hmark, -⟩
      exact hmark

theorem Tell.congr (h : Tell P s marks) (hPQ : ∀ tail, P tail ↔ Q tail) :
    Tell Q s marks :=
  h.imp fun _ tail hmark => hmark.trans (hPQ tail)

theorem tell_atEnd (s : List Char) : Tell (· = []) s (atEnd s) := by
  induction s with
  | nil => exact tell_nil_iff.mpr ⟨true, rfl, by simp⟩
  | cons c s ih => exact tell_cons_iff.mpr ⟨false, atEnd s, rfl, by simp, ih⟩

theorem tell_or {others : Marks} (h : Tell P s marks) (hothers : Tell Q s others) :
    Tell (fun tail => P tail ∨ Q tail) s (List.zipWith (· || ·) marks others) := by
  induction s generalizing marks others with
  | nil =>
      rcases tell_nil_iff.mp h with ⟨mark, rfl, hmark⟩
      rcases tell_nil_iff.mp hothers with ⟨other, rfl, hother⟩
      exact tell_nil_iff.mpr ⟨mark || other, rfl, by simp [hmark, hother]⟩
  | cons c s ih =>
      rcases tell_cons_iff.mp h with ⟨mark, below, rfl, hmark, hbelow⟩
      rcases tell_cons_iff.mp hothers with ⟨other, far, rfl, hother, hfar⟩
      apply tell_cons_iff.mpr
      refine ⟨mark || other, List.zipWith (· || ·) below far, rfl, ?_, ih hbelow hfar⟩
      simp [hmark, hother]

theorem tell_afterOne (test : Char → Bool) (h : Tell P s marks) :
    Tell (fun tail => ∃ c rest, tail = c :: rest ∧ test c = true ∧ P rest) s
      (afterOne test s marks) := by
  induction s generalizing marks with
  | nil => exact tell_nil_iff.mpr ⟨false, rfl, by simp⟩
  | cons c s ih =>
      rcases tell_cons_iff.mp h with ⟨mark, below, rfl, -, hbelow⟩
      apply tell_cons_iff.mpr
      refine ⟨test c && whole below, afterOne test s below, rfl, ?_, ih hbelow⟩
      rw [Bool.and_eq_true, hbelow.whole_iff]
      constructor
      · intro h
        rcases h with ⟨hc, hs⟩
        exact ⟨c, s, rfl, hc, hs⟩
      · intro h
        rcases h with ⟨c', s', heq, hc, hs⟩
        cases heq
        exact ⟨hc, hs⟩

theorem tell_afterMany (test : Char → Bool) (h : Tell P s marks) :
    Tell (fun tail => ∃ slice rest, tail = slice ++ rest ∧
      (∀ c ∈ slice, test c = true) ∧ P rest) s (afterMany test s marks) := by
  induction s generalizing marks with
  | nil =>
      rcases tell_nil_iff.mp h with ⟨mark, rfl, hmark⟩
      refine tell_nil_iff.mpr ⟨mark, rfl, hmark.trans ?_⟩
      constructor
      · intro hnil
        exact ⟨[], [], rfl, by simp, hnil⟩
      · intro h
        rcases h with ⟨slice, rest, heq, -, hrest⟩
        rcases List.append_eq_nil_iff.mp heq.symm with ⟨-, rfl⟩
        exact hrest
  | cons c s ih =>
      rcases tell_cons_iff.mp h with ⟨mark, below, rfl, hmark, hbelow⟩
      apply tell_cons_iff.mpr
      refine ⟨mark || (test c && whole (afterMany test s below)), afterMany test s below,
        rfl, ?_, ih hbelow⟩
      rw [Bool.or_eq_true, Bool.and_eq_true, hmark, (ih hbelow).whole_iff]
      constructor
      · intro h
        rcases h with hall | ⟨hc, slice, rest, rfl, hslice, hrest⟩
        · exact ⟨[], c :: s, rfl, by simp, hall⟩
        · exact ⟨c :: slice, rest, rfl, by simpa [hc] using hslice, hrest⟩
      · intro h
        rcases h with ⟨slice, rest, heq, hslice, hrest⟩
        cases slice with
        | nil => exact .inl (heq ▸ hrest)
        | cons c' slice =>
            cases heq
            have htests := List.forall_mem_cons.mp hslice
            exact .inr ⟨htests.left, slice, rest, rfl, htests.right, hrest⟩

theorem tell_afterSeparator (h : Tell P s marks) :
    Tell (fun tail => ∃ directories rest, tail = directories ++ '/' :: rest ∧ P rest) s
      (afterSeparator s marks) := by
  induction s generalizing marks with
  | nil => exact tell_nil_iff.mpr ⟨false, rfl, by simp⟩
  | cons c s ih =>
      rcases tell_cons_iff.mp h with ⟨mark, below, rfl, -, hbelow⟩
      apply tell_cons_iff.mpr
      refine ⟨(c == '/' && whole below) || whole (afterSeparator s below),
        afterSeparator s below, rfl, ?_, ih hbelow⟩
      rw [Bool.or_eq_true, Bool.and_eq_true, beq_iff_eq, hbelow.whole_iff,
        (ih hbelow).whole_iff]
      constructor
      · intro h
        rcases h with ⟨rfl, hs⟩ | ⟨directories, rest, rfl, hrest⟩
        · exact ⟨[], s, rfl, hs⟩
        · exact ⟨c :: directories, rest, rfl, hrest⟩
      · intro h
        rcases h with ⟨directories, rest, heq, hrest⟩
        cases directories with
        | nil =>
            cases heq
            exact .inl ⟨rfl, hrest⟩
        | cons d directories =>
            cases heq
            exact .inr ⟨directories, rest, rfl, hrest⟩

end Marks

/-! ## Atoms and patterns -/

/-- What the marks tell once the pass for an atom is over. -/
theorem Atom.tell_mark (a : Atom) {P : List Char → Prop} {s : List Char} {marks : Marks}
    (h : Marks.Tell P s marks) :
    Marks.Tell (fun tail => ∃ slice rest, tail = slice ++ rest ∧ a.Matches slice ∧ P rest)
      s (a.mark s marks) := by
  cases a with
  | literal c =>
      refine (Marks.tell_afterOne (· == c) h).congr fun tail => ?_
      simp [Atom.Matches]
  | single =>
      refine (Marks.tell_afterOne (· != '/') h).congr fun tail => ?_
      constructor
      · intro h
        rcases h with ⟨c, rest, rfl, hc, hrest⟩
        exact ⟨[c], rest, rfl, ⟨c, by simpa using hc, rfl⟩, hrest⟩
      · intro h
        rcases h with ⟨-, rest, rfl, ⟨c, hc, rfl⟩, hrest⟩
        exact ⟨c, rest, rfl, by simpa using hc, hrest⟩
  | oneOf set =>
      refine (Marks.tell_afterOne set.has h).congr fun tail => ?_
      constructor
      · intro h
        rcases h with ⟨c, rest, rfl, hc, hrest⟩
        exact ⟨[c], rest, rfl, ⟨c, hc, rfl⟩, hrest⟩
      · intro h
        rcases h with ⟨-, rest, rfl, ⟨c, hc, rfl⟩, hrest⟩
        exact ⟨c, rest, rfl, hc, hrest⟩
  | run =>
      refine (Marks.tell_afterMany (· != '/') h).congr fun tail => ?_
      have htest : ∀ slice : List Char,
          (∀ c ∈ slice, (c != '/') = true) ↔ '/' ∉ slice := by
        intro slice
        constructor
        · intro hall hmem
          simpa using hall '/' hmem
        · intro hmem c hc
          have hne : c ≠ '/' := fun heq => hmem (heq ▸ hc)
          simpa using hne
      simp only [htest, Atom.Matches]
  | anything =>
      refine (Marks.tell_afterMany (fun _ => true) h).congr fun tail => ?_
      simp [Atom.Matches]
  | deepSeparator =>
      refine (Marks.tell_afterOne (· == '/')
        (Marks.tell_or h (Marks.tell_afterSeparator h))).congr fun tail => ?_
      constructor
      · intro h
        rcases h with ⟨c, rest, rfl, hc, hrest⟩
        cases beq_iff_eq.mp hc
        rcases hrest with hrest | ⟨between, rest, rfl, hrest⟩
        · exact ⟨['/'], rest, rfl, .inl rfl, hrest⟩
        · exact ⟨'/' :: (between ++ ['/']), rest, by simp, .inr ⟨between, rfl⟩, hrest⟩
      · intro h
        rcases h with ⟨-, rest, rfl, rfl | ⟨between, rfl⟩, hrest⟩
        · exact ⟨'/', rest, rfl, rfl, .inl hrest⟩
        · exact ⟨'/', between ++ '/' :: rest, by simp, rfl, .inr ⟨between, rest, rfl, hrest⟩⟩

namespace Pattern

theorem tell_marks (p : Pattern) (s : List Char) : Marks.Tell p.Matches s (p.marks s) := by
  induction p with
  | nil => exact (Marks.tell_atEnd s).congr fun tail => matches_nil_iff.symm
  | cons a p ih => exact (a.tell_mark ih).congr fun tail => matches_cons_iff.symm

theorem accepts_iff {p : Pattern} {s : List Char} : p.accepts s = true ↔ p.Matches s :=
  (tell_marks p s).whole_iff

theorem acceptsBelow_iff {p : Pattern} {s : List Char} :
    p.acceptsBelow s = true ↔
      p.Matches s ∨ ∃ directories rest, s = directories ++ '/' :: rest ∧ p.Matches rest := by
  rw [acceptsBelow, Bool.or_eq_true, accepts_iff,
    (Marks.tell_afterSeparator (tell_marks p s)).whole_iff]

end Pattern
end Glob
end FileStyle
