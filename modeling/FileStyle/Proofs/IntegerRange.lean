import FileStyle.Glob.Brace
import Mathlib.Data.Int.Range

/-!
# Integer ranges

A range is written as two bounds with two dots between them, and a bound as digits with a
sign in front or none. The texts of a range are the integers from the smaller bound to the
larger in their usual notation.
-/

namespace FileStyle

/-! ## Integers in decimal notation -/

namespace Text

theorem decimalOfNat_eq_toDigits (n : Nat) : decimalOfNat n = Nat.toDigits 10 n := by
  have hdigit : ∀ d < 10, decimalDigit d = d.digitChar := by decide
  fun_induction decimalOfNat n with
  | case1 n hn => rw [Nat.toDigits_of_lt_base hn, hdigit n hn]
  | case2 n hn ih =>
      have hlast : n % 10 < 10 := Nat.mod_lt n (by decide)
      have hfront : 0 < n / 10 := Nat.div_pos (Nat.le_of_not_lt hn) (by decide)
      calc
        decimalOfNat (n / 10) ++ [decimalDigit (n % 10)] =
            Nat.toDigits 10 (n / 10) ++ Nat.toDigits 10 (n % 10) := by
          rw [ih, hdigit _ hlast, Nat.toDigits_of_lt_base hlast]
        _ = Nat.toDigits 10 (10 * (n / 10) + n % 10) :=
          Nat.toDigits_append_toDigits (by decide) hfront hlast
        _ = Nat.toDigits 10 n := by rw [Nat.div_add_mod]

theorem decimalOfInt_eq_toString (n : Int) : decimalOfInt n = (toString n).toList := by
  cases n with
  | ofNat n =>
      show decimalOfNat n = (Nat.repr n).toList
      rw [decimalOfNat_eq_toDigits, Nat.repr_eq_ofList_toDigits, String.toList_ofList]
  | negSucc n =>
      show '-' :: decimalOfNat (n + 1) = ("-" ++ Nat.repr (n + 1)).toList
      rw [decimalOfNat_eq_toDigits, Nat.repr_eq_ofList_toDigits, String.toList_append]
      exact congrArg ('-' :: ·) String.toList_ofList.symm

end Text

namespace Glob

open Glyph

theorem integersBetween_eq_range (a b : Int) :
    integersBetween a b = Int.range (min a b) (max a b + 1) := by
  have hcount : (max a b - min a b).toNat + 1 = (max a b + 1 - min a b).toNat := by omega
  rw [integersBetween, Int.range, hcount]

/-! ## Digits -/

theorem takeDigits_append {digits rest : List Char} {values : List Nat}
    (hdigits : digits.map Text.digitValue? = values.map some)
    (hrest : ∀ c ∈ rest.head?, Text.digitValue? c = none) :
    takeDigits (digits ++ rest) = (values, rest) := by
  induction digits generalizing values with
  | nil =>
      have hvalues : values = [] := by simpa using hdigits.symm
      rw [hvalues, List.nil_append]
      cases rest with
      | nil => rfl
      | cons c rest => rw [takeDigits, hrest c rfl]
  | cons c digits ih =>
      cases values with
      | nil => simp at hdigits
      | cons d values =>
          injection hdigits with hc htail
          rw [List.cons_append, takeDigits, hc, ih htail]

theorem exists_of_takeDigits (s : List Char) :
    ∃ digits, s = digits ++ (takeDigits s).2 ∧
      digits.map Text.digitValue? = (takeDigits s).1.map some ∧
      ∀ c ∈ (takeDigits s).2.head?, Text.digitValue? c = none := by
  induction s with
  | nil => exact ⟨[], rfl, rfl, by simp [takeDigits]⟩
  | cons c s ih =>
      rw [takeDigits]
      cases hc : Text.digitValue? c with
      | none => exact ⟨[], rfl, rfl, by simp [hc]⟩
      | some d =>
          rcases ih with ⟨digits, hs, hdigits, hrest⟩
          exact ⟨c :: digits, congrArg (c :: ·) hs, by simp [hc, hdigits], hrest⟩

/-! ## Bounds -/

namespace Bound

def SpelledBy (b : Bound) (s : List Char) : Prop :=
  ∃ sign ∈ [[], ['+'], ['-']], ∃ digits, s = sign ++ digits ∧ digits ≠ [] ∧
    digits.map Text.digitValue? = b.digits.map some ∧ (b.negative = true ↔ sign = ['-'])

def ofDigits? (negative : Bool) (s : List Char) : Option (Bound × List Char) :=
  match takeDigits s with
  | ([], _) => none
  | (digits, rest) => some (⟨negative, digits⟩, rest)

theorem ofDigits?_eq_some_iff {negative : Bool} {s rest : List Char} {b : Bound} :
    ofDigits? negative s = some (b, rest) ↔
      ∃ digits, s = digits ++ rest ∧ digits ≠ [] ∧
        digits.map Text.digitValue? = b.digits.map some ∧ b.negative = negative ∧
        ∀ c ∈ rest.head?, Text.digitValue? c = none := by
  constructor
  · intro h
    rcases exists_of_takeDigits s with ⟨digits, hs, hdigits, hrest⟩
    rw [ofDigits?] at h
    rcases htake : takeDigits s with ⟨values, tail⟩
    rw [htake] at h hs hdigits hrest
    cases values with
    | nil => cases h
    | cons value values =>
        cases h
        refine ⟨digits, hs, ?_, hdigits, rfl, hrest⟩
        intro hnil
        rw [hnil] at hdigits
        cases hdigits
  · intro h
    rcases h with ⟨digits, rfl, hne, hdigits, rfl, hrest⟩
    rcases b with ⟨negative, values⟩
    rw [ofDigits?, takeDigits_append hdigits hrest]
    cases values with
    | nil => exact absurd (List.map_eq_nil_iff.mp hdigits) hne
    | cons value values => rfl

theorem read?_of_unsigned {s : List Char} (hplus : s.head? ≠ some '+')
    (hminus : s.head? ≠ some '-') : read? s = ofDigits? false s := by
  cases s with
  | nil => rfl
  | cons c s =>
      have hplus' : c ≠ '+' := fun heq => hplus (congrArg some heq)
      have hminus' : c ≠ '-' := fun heq => hminus (congrArg some heq)
      unfold read?
      split
      next negative rest hsign =>
        split at hsign
        · next heq =>
            cases heq
            exact absurd rfl hplus'
        · next heq =>
            cases heq
            exact absurd rfl hminus'
        · cases hsign
          rfl

theorem head?_ne_of_digits {digits rest : List Char} {values : List Nat} (hne : digits ≠ [])
    (hdigits : digits.map Text.digitValue? = values.map some) {sign : Char}
    (hsign : Text.digitValue? sign = none) : (digits ++ rest).head? ≠ some sign := by
  cases digits with
  | nil => exact absurd rfl hne
  | cons c digits =>
      intro heq
      cases heq
      cases values with
      | nil => cases hdigits
      | cons value values =>
          injection hdigits with hc _
          rw [hsign] at hc
          cases hc

theorem read?_eq_some_iff {s rest : List Char} {b : Bound} :
    read? s = some (b, rest) ↔
      ∃ t, s = t ++ rest ∧ b.SpelledBy t ∧ ∀ c ∈ rest.head?, Text.digitValue? c = none := by
  constructor
  · intro h
    by_cases hplus : s.head? = some '+'
    · rcases List.head?_eq_some_iff.mp hplus with ⟨s, rfl⟩
      rcases ofDigits?_eq_some_iff.mp h with ⟨digits, rfl, hne, hdigits, hneg, hrest⟩
      exact ⟨'+' :: digits, rfl, ⟨['+'], by simp, digits, rfl, hne, hdigits, by simp [hneg]⟩,
        hrest⟩
    · by_cases hminus : s.head? = some '-'
      · rcases List.head?_eq_some_iff.mp hminus with ⟨s, rfl⟩
        rcases ofDigits?_eq_some_iff.mp h with ⟨digits, rfl, hne, hdigits, hneg, hrest⟩
        exact ⟨'-' :: digits, rfl,
          ⟨['-'], by simp, digits, rfl, hne, hdigits, by simp [hneg]⟩, hrest⟩
      · rw [read?_of_unsigned hplus hminus] at h
        rcases ofDigits?_eq_some_iff.mp h with ⟨digits, rfl, hne, hdigits, hneg, hrest⟩
        exact ⟨digits, rfl, ⟨[], by simp, digits, rfl, hne, hdigits, by simp [hneg]⟩, hrest⟩
  · intro h
    rcases h with ⟨t, rfl, ⟨sign, hmem, digits, rfl, hne, hdigits, hneg⟩, hrest⟩
    have hcases : sign = [] ∨ sign = ['+'] ∨ sign = ['-'] := by simpa using hmem
    rcases hcases with rfl | rfl | rfl
    · have hunsigned : read? (digits ++ rest) = ofDigits? false (digits ++ rest) :=
        read?_of_unsigned (head?_ne_of_digits hne hdigits (by decide))
          (head?_ne_of_digits hne hdigits (by decide))
      rw [List.nil_append, hunsigned]
      exact ofDigits?_eq_some_iff.mpr
        ⟨digits, rfl, hne, hdigits, by simpa using hneg, hrest⟩
    · exact ofDigits?_eq_some_iff.mpr
        ⟨digits, rfl, hne, hdigits, by simpa using hneg, hrest⟩
    · exact ofDigits?_eq_some_iff.mpr
        ⟨digits, rfl, hne, hdigits, by simpa using hneg, hrest⟩

end Bound

/-! ## Ranges -/

def IsRange (first last : Bound) (s : List Char) : Prop :=
  ∃ t u, s = t ++ '.' :: '.' :: u ∧ first.SpelledBy t ∧ last.SpelledBy u

theorem Bound.SpelledBy.eq_of_mem {b : Bound} {s : List Char} (h : b.SpelledBy s) {c : Char}
    (hc : c ∈ s) : c = '+' ∨ c = '-' ∨ Text.digitValue? c ≠ none := by
  rcases h with ⟨sign, hmem, digits, rfl, -, hdigits, -⟩
  have hcases : sign = [] ∨ sign = ['+'] ∨ sign = ['-'] := by simpa using hmem
  rcases List.mem_append.mp hc with hsign | hdigit
  · rcases hcases with rfl | rfl | rfl
    · cases hsign
    · exact .inl (List.mem_singleton.mp hsign)
    · exact .inr (.inl (List.mem_singleton.mp hsign))
  · have hvalue : Text.digitValue? c ∈ digits.map Text.digitValue? :=
      List.mem_map_of_mem hdigit
    rw [hdigits] at hvalue
    rcases List.mem_map.mp hvalue with ⟨d, -, hd⟩
    refine .inr (.inr ?_)
    rw [← hd]
    exact Option.some_ne_none d

theorem IsRange.eq_of_mem {first last : Bound} {s : List Char} (h : IsRange first last s)
    {c : Char} (hc : c ∈ s) : c = '.' ∨ c = '+' ∨ c = '-' ∨ Text.digitValue? c ≠ none := by
  rcases h with ⟨t, u, rfl, hfirst, hlast⟩
  have hcases : c ∈ t ∨ c = '.' ∨ c ∈ u := by simpa using hc
  rcases hcases with ht | hdot | hu
  · exact .inr (hfirst.eq_of_mem ht)
  · exact .inl hdot
  · exact .inr (hlast.eq_of_mem hu)

theorem rangeBounds?_of_isRange {s : List Char} {first last : Bound}
    (h : IsRange first last s) : rangeBounds? s = some (first, last) := by
  rcases h with ⟨t, u, rfl, hfirst, hlast⟩
  have hdot : Text.digitValue? '.' = none := by decide
  have hread : Bound.read? (t ++ '.' :: '.' :: u) = some (first, '.' :: '.' :: u) :=
    Bound.read?_eq_some_iff.mpr ⟨t, rfl, hfirst, by simp [hdot]⟩
  have hrest : Bound.read? u = some (last, []) :=
    Bound.read?_eq_some_iff.mpr ⟨u, by simp, hlast, by simp⟩
  rw [rangeBounds?, hread]
  simp only [hrest]

theorem rangeBounds?_eq_some_iff {s : List Char} (hline : '\n' ∉ s) {first last : Bound} :
    rangeBounds? s = some (first, last) ↔ IsRange first last s := by
  constructor
  · intro h
    unfold rangeBounds? at h
    split at h
    · next before rest hread =>
        rcases Bound.read?_eq_some_iff.mp hread with ⟨t, rfl, hfirst, -⟩
        split at h
        · next after hrest =>
            cases h
            rcases Bound.read?_eq_some_iff.mp hrest with ⟨u, rfl, hlast, -⟩
            rw [List.append_nil]
            exact ⟨t, u, rfl, hfirst, hlast⟩
        · next after hrest =>
            rcases Bound.read?_eq_some_iff.mp hrest with ⟨u, rfl, -, -⟩
            exact absurd (by simp) hline
        · cases h
    · cases h
  · exact rangeBounds?_of_isRange

end Glob
end FileStyle
