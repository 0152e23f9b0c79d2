import FileStyle.Text.Lowercase
import Mathlib.Data.List.Basic

/-!
# Lower-case text

The lower-case form of a text is its own lower-case form: the counterpart of a letter is
no letter of the table, and neither of the two letters that are mapped by themselves. Nor
is it a blank, so that a trimmed text stays trimmed.
-/

namespace FileStyle
namespace Text

/-! ## The table of letters -/

namespace LetterRun

def outside (run : LetterRun) (range : Nat × Nat) : Bool :=
  range.2 < run.target || run.map run.last < range.1

/-- Whether no counterpart of the run is a letter of another. Runs whose ranges overlap
take turns: both skip every other code point. -/
def misses (run other : LetterRun) : Bool :=
  run.outside (other.first, other.last) ||
    ((run.step == 2 || run.first == run.last) && other.step == 2 &&
      (run.target + other.first) % 2 == 1)

theorem contains_iff {run : LetterRun} {n : Nat} :
    run.contains n = true ↔
      run.first ≤ n ∧ n ≤ run.last ∧ (n - run.first) % run.step = 0 := by
  simp [contains, and_assoc]

theorem not_mem_of_outside {run : LetterRun} {range : Nat × Nat} {n : Nat}
    (h : run.outside range = true) (hn : run.contains n = true) :
    ¬ (range.1 ≤ run.map n ∧ run.map n ≤ range.2) := by
  have hcases : range.2 < run.target ∨ run.map run.last < range.1 := by
    simpa [outside] using h
  rcases contains_iff.mp hn with ⟨hfirst, hlast, -⟩
  unfold map at hcases ⊢
  omega

theorem contains_map_of_misses {run other : LetterRun} {n : Nat}
    (h : run.misses other = true) (hn : run.contains n = true) :
    other.contains (run.map n) = false := by
  have hcases : run.outside (other.first, other.last) = true ∨
      ((run.step = 2 ∨ run.first = run.last) ∧ other.step = 2) ∧
        (run.target + other.first) % 2 = 1 := by
    simpa [misses] using h
  rw [Bool.eq_false_iff]
  intro hmap
  rcases contains_iff.mp hmap with ⟨hfirst', hlast', hstep'⟩
  rcases hcases with houtside | ⟨⟨hrun, hother⟩, hparity⟩
  · exact not_mem_of_outside houtside hn ⟨hfirst', hlast'⟩
  · rcases contains_iff.mp hn with ⟨hfirst, hlast, hstep⟩
    have heven : (n - run.first) % 2 = 0 := by
      rcases hrun with htwo | hone
      · rw [← htwo]
        exact hstep
      · omega
    rw [hother] at hstep'
    unfold map at hfirst' hstep'
    omega

end LetterRun

theorem misses_of_mem {run other : LetterRun} (hrun : run ∈ lowercaseRuns)
    (hother : other ∈ lowercaseRuns) : run.misses other = true := by
  have htable : (lowercaseRuns.all fun run => lowercaseRuns.all run.misses) = true := by
    decide +kernel
  exact List.all_eq_true.mp (List.all_eq_true.mp htable run hrun) other hother

def unreached : Ranges :=
  (0x130, 0x130) :: (0x3A3, 0x3A3) :: (0xD800, 0xDFFF) :: blankRanges

theorem outside_of_mem {run : LetterRun} (hrun : run ∈ lowercaseRuns) {range : Nat × Nat}
    (hrange : range ∈ unreached) : run.outside range = true := by
  have htable : (lowercaseRuns.all fun run => unreached.all run.outside) = true := by
    decide +kernel
  exact List.all_eq_true.mp (List.all_eq_true.mp htable run hrun) range hrange

theorem isValidChar_map {run : LetterRun} {n : Nat} (hrun : run ∈ lowercaseRuns)
    (hn : run.contains n = true) : (run.map n).isValidChar := by
  have htable : (lowercaseRuns.all fun run => run.map run.last < 0x110000) = true := by
    decide +kernel
  have hbound : run.map run.last < 0x110000 := by
    simpa using List.all_eq_true.mp htable run hrun
  have hmem : (0xD800, 0xDFFF) ∈ unreached := by simp [unreached]
  have hsurrogate : ¬ (0xD800 ≤ run.map n ∧ run.map n ≤ 0xDFFF) :=
    LetterRun.not_mem_of_outside (outside_of_mem hrun hmem) hn
  rcases LetterRun.contains_iff.mp hn with ⟨-, hlast, -⟩
  unfold LetterRun.map at hbound hsurrogate ⊢
  unfold Nat.isValidChar
  omega

theorem lowercaseLetter_cases (c : Char) :
    ((∀ run ∈ lowercaseRuns, run.contains c.toNat = false) ∧ lowercaseLetter c = c) ∨
      ∃ run ∈ lowercaseRuns, run.contains c.toNat = true ∧
        (lowercaseLetter c).toNat = run.map c.toNat := by
  cases hfind : lowercaseRuns.find? (·.contains c.toNat) with
  | none =>
      refine .inl ⟨?_, ?_⟩
      · simpa using List.find?_eq_none.mp hfind
      · rw [lowercaseLetter, hfind]
  | some run =>
      have hmem := List.mem_of_find?_eq_some hfind
      have hcontains : run.contains c.toNat = true := by
        simpa using List.find?_some hfind
      refine .inr ⟨run, hmem, hcontains, ?_⟩
      rw [lowercaseLetter, hfind]
      show (Char.ofNat (run.map c.toNat)).toNat = run.map c.toNat
      rw [Char.ofNat, dif_pos (isValidChar_map hmem hcontains)]
      rfl

theorem lowercaseLetter_lowercaseLetter (c : Char) :
    lowercaseLetter (lowercaseLetter c) = lowercaseLetter c := by
  rcases lowercaseLetter_cases c with ⟨-, hsame⟩ | ⟨run, hrun, hcontains, hmap⟩
  · rw [hsame, hsame]
  · rcases lowercaseLetter_cases (lowercaseLetter c) with
      ⟨-, hsame⟩ | ⟨other, hother, hcontains', -⟩
    · exact hsame
    · rw [hmap, LetterRun.contains_map_of_misses (misses_of_mem hrun hother) hcontains]
        at hcontains'
      cases hcontains'

theorem lowercaseLetter_not_mem {c : Char} {range : Nat × Nat} (hrange : range ∈ unreached)
    (hc : ¬ (range.1 ≤ c.toNat ∧ c.toNat ≤ range.2)) :
    ¬ (range.1 ≤ (lowercaseLetter c).toNat ∧ (lowercaseLetter c).toNat ≤ range.2) := by
  rcases lowercaseLetter_cases c with ⟨-, hsame⟩ | ⟨run, hrun, hcontains, hmap⟩
  · rw [hsame]
    exact hc
  · rw [hmap]
    exact LetterRun.not_mem_of_outside (outside_of_mem hrun hrange) hcontains

theorem lowercaseLetter_ne {c d : Char} (hd : (d.toNat, d.toNat) ∈ unreached) (hc : c ≠ d) :
    lowercaseLetter c ≠ d := by
  have hapart : ¬ (d.toNat ≤ c.toNat ∧ c.toNat ≤ d.toNat) := by
    intro hboth
    exact hc (Char.toNat_inj.mp (Nat.le_antisymm hboth.right hboth.left))
  intro heq
  apply lowercaseLetter_not_mem hd hapart
  rw [heq]
  exact ⟨Nat.le_refl _, Nat.le_refl _⟩

theorem isBlank_lowercaseLetter {c : Char} (h : isBlank c = false) :
    isBlank (lowercaseLetter c) = false := by
  rw [Bool.eq_false_iff] at h ⊢
  intro hblank
  rcases (Ranges.has_iff _ _).mp hblank with ⟨range, hrange, hmem⟩
  have hunreached : range ∈ unreached := by simp [unreached, hrange]
  apply lowercaseLetter_not_mem hunreached _ hmem
  intro hc
  exact h ((Ranges.has_iff _ _).mpr ⟨range, hrange, hc⟩)

/-! ## Lower-case texts -/

def IsLower (c : Char) : Prop :=
  c ≠ '\u03a3' ∧ c ≠ '\u0130' ∧ lowercaseLetter c = c

theorem lowercaseAt_of_isLower {c : Char} (h : IsLower c) (before after : List Char) :
    lowercaseAt before c after = [c] := by
  rcases h with ⟨hsigma, hdotted, hletter⟩
  rw [lowercaseAt, if_neg hsigma, if_neg hdotted, hletter]

theorem isLower_of_mem_lowercaseAt {before after : List Char} {c d : Char}
    (h : d ∈ lowercaseAt before c after) : IsLower d := by
  unfold lowercaseAt at h
  split at h
  · rw [List.mem_singleton.mp h]
    split
    · exact ⟨by decide, by decide, by decide +kernel⟩
    · exact ⟨by decide, by decide, by decide +kernel⟩
  · next hsigma =>
      split at h
      · rcases List.mem_cons.mp h with rfl | hdot
        · exact ⟨by decide, by decide, by decide +kernel⟩
        · rw [List.mem_singleton.mp hdot]
          exact ⟨by decide, by decide, by decide +kernel⟩
      · next hdotted =>
          rw [List.mem_singleton.mp h]
          exact ⟨lowercaseLetter_ne (by decide) hsigma, lowercaseLetter_ne (by decide) hdotted,
            lowercaseLetter_lowercaseLetter c⟩

theorem isLower_of_mem_lowercaseFrom {before s : List Char} {d : Char}
    (h : d ∈ lowercaseFrom before s) : IsLower d := by
  induction s generalizing before with
  | nil => cases h
  | cons c s ih =>
      rcases List.mem_append.mp h with hfirst | hrest
      · exact isLower_of_mem_lowercaseAt hfirst
      · exact ih hrest

theorem lowercaseFrom_of_isLower {s : List Char} (h : ∀ c ∈ s, IsLower c)
    (before : List Char) : lowercaseFrom before s = s := by
  induction s generalizing before with
  | nil => rfl
  | cons c s ih =>
      have hall := List.forall_mem_cons.mp h
      rw [lowercaseFrom, lowercaseAt_of_isLower hall.left, ih hall.right]
      rfl

theorem lowercase_lowercase (s : List Char) : lowercase (lowercase s) = lowercase s :=
  lowercaseFrom_of_isLower (fun _ hc => isLower_of_mem_lowercaseFrom hc) []

/-! ## Trimmed texts -/

def IsTrimmed (s : List Char) : Prop :=
  (∀ c ∈ s.head?, isBlank c = false) ∧ ∀ c ∈ s.getLast?, isBlank c = false

theorem isBlank_head?_dropWhile (s : List Char) :
    ∀ c ∈ (s.dropWhile isBlank).head?, isBlank c = false := by
  intro c hc
  have hfirst := List.head?_dropWhile_not isBlank s
  rw [hc] at hfirst
  simpa using hfirst

theorem dropWhile_of_isBlank_head? {s : List Char} (h : ∀ c ∈ s.head?, isBlank c = false) :
    s.dropWhile isBlank = s := by
  cases s with
  | nil => rfl
  | cons c s =>
      have hc : isBlank c = false := h c rfl
      rw [List.dropWhile_cons_of_neg (by simp [hc])]

theorem trim_of_isTrimmed {s : List Char} (h : IsTrimmed s) : trim s = s := by
  have hlast : ∀ c ∈ s.reverse.head?, isBlank c = false := by
    rw [List.head?_reverse]
    exact h.right
  rw [trim, trimLeft, dropWhile_of_isBlank_head? h.left, trimRight,
    dropWhile_of_isBlank_head? hlast, List.reverse_reverse]

theorem trimRight_prefix (s : List Char) : trimRight s <+: s := by
  have hsuffix := List.dropWhile_suffix (l := s.reverse) isBlank
  rw [← List.reverse_prefix, List.reverse_reverse] at hsuffix
  exact hsuffix

theorem isTrimmed_trim (s : List Char) : IsTrimmed (trim s) := by
  constructor
  · intro c hc
    rcases trimRight_prefix (trimLeft s) with ⟨rest, hrest⟩
    apply isBlank_head?_dropWhile s c
    show (trimLeft s).head? = some c
    rw [← hrest]
    rcases List.head?_eq_some_iff.mp hc with ⟨tail, htail⟩
    rw [trim] at htail
    rw [htail]
    rfl
  · rw [trim, trimRight, List.getLast?_reverse]
    exact isBlank_head?_dropWhile _

/-! ## Lower-casing trimmed text -/

theorem isBlank_of_mem_lowercaseAt {before after : List Char} {c d : Char}
    (h : d ∈ lowercaseAt before c after) (hc : isBlank c = false) : isBlank d = false := by
  unfold lowercaseAt at h
  split at h
  · rw [List.mem_singleton.mp h]
    split
    · decide
    · decide
  · split at h
    · rcases List.mem_cons.mp h with rfl | hdot
      · decide
      · rw [List.mem_singleton.mp hdot]
        decide
    · rw [List.mem_singleton.mp h]
      exact isBlank_lowercaseLetter hc

theorem lowercaseAt_ne_nil (before : List Char) (c : Char) (after : List Char) :
    lowercaseAt before c after ≠ [] := by
  unfold lowercaseAt
  split
  · exact List.cons_ne_nil _ _
  · split
    · exact List.cons_ne_nil _ _
    · exact List.cons_ne_nil _ _

theorem isBlank_head?_lowercaseFrom {s : List Char} (h : ∀ c ∈ s.head?, isBlank c = false)
    (before : List Char) : ∀ d ∈ (lowercaseFrom before s).head?, isBlank d = false := by
  intro d hd
  cases s with
  | nil => cases hd
  | cons c s =>
      rw [lowercaseFrom, List.head?_append_of_ne_nil _ (lowercaseAt_ne_nil before c s)] at hd
      exact isBlank_of_mem_lowercaseAt (List.mem_of_mem_head? hd) (h c rfl)

theorem isBlank_getLast?_lowercaseFrom {s : List Char}
    (h : ∀ c ∈ s.getLast?, isBlank c = false) (before : List Char) :
    ∀ d ∈ (lowercaseFrom before s).getLast?, isBlank d = false := by
  induction s generalizing before with
  | nil =>
      intro d hd
      cases hd
  | cons c s ih =>
      cases s with
      | nil =>
          intro d hd
          rw [lowercaseFrom, lowercaseFrom, List.append_nil] at hd
          exact isBlank_of_mem_lowercaseAt (List.mem_of_mem_getLast? hd) (h c rfl)
      | cons next s =>
          have hrest : lowercaseFrom (c :: before) (next :: s) ≠ [] := by
            rw [lowercaseFrom]
            exact List.append_ne_nil_of_left_ne_nil (lowercaseAt_ne_nil _ _ _) _
          rw [lowercaseFrom, List.getLast?_append_of_ne_nil _ hrest]
          apply ih
          rw [List.getLast?_cons_cons] at h
          exact h

theorem isTrimmed_lowercase {s : List Char} (h : IsTrimmed s) : IsTrimmed (lowercase s) :=
  ⟨isBlank_head?_lowercaseFrom h.left [], isBlank_getLast?_lowercaseFrom h.right []⟩

theorem lowercase_trim_lowercase_trim (s : List Char) :
    lowercase (trim (lowercase (trim s))) = lowercase (trim s) := by
  rw [trim_of_isTrimmed (isTrimmed_lowercase (isTrimmed_trim s)), lowercase_lowercase]

end Text
end FileStyle
