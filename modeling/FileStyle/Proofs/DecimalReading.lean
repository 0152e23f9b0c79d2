import FileStyle.Proofs.IntegerRange
import FileStyle.Proofs.LowerCase
import FileStyle.Proofs.Outcome
import Mathlib.Data.List.Induction
import Mathlib.Data.Nat.Digits.Defs

/-!
# Decimal notation read back

What is read has only so many digits, so that its amount is below a power of ten. Every
natural number below that power has few enough digits, and is read back from its notation.
-/

namespace FileStyle
namespace Text

/-! ## The values of digits -/

theorem ofDigits_append_singleton (ds : List Nat) (d : Nat) :
    ofDigits (ds ++ [d]) = 10 * ofDigits ds + d := by
  rw [ofDigits, List.foldl_append]
  rfl

theorem ofDigits_lt {ds : List Nat} (h : ∀ d ∈ ds, d < 10) : ofDigits ds < 10 ^ ds.length := by
  induction ds using List.reverseRecOn with
  | nil => decide
  | append_singleton ds d ih =>
      rcases List.forall_mem_append.mp h with ⟨hds, hd⟩
      have hlast : d < 10 := hd d List.mem_cons_self
      have hfront : ofDigits ds < 10 ^ ds.length := ih hds
      rw [ofDigits_append_singleton, List.length_append, List.length_singleton, Nat.pow_succ]
      omega

theorem digitValue?_lt {c : Char} {d : Nat} (h : digitValue? c = some d) : d < 10 := by
  rcases Option.map_eq_some_iff.mp h with ⟨first, hfirst, rfl⟩
  have hrange := List.find?_some hfirst
  simp only [Bool.and_eq_true, decide_eq_true_eq] at hrange
  omega

/-! ## Reading -/

theorem groupedDigits?_lt {s : List Char} {ds : List Nat} (h : groupedDigits? s = some ds) :
    ∀ d ∈ ds, d < 10 := by
  fun_induction groupedDigits? s generalizing ds with
  | case1 => cases h
  | case2 c =>
      rcases Option.map_eq_some_iff.mp h with ⟨d, hd, rfl⟩
      simpa using digitValue?_lt hd
  | case3 c rest ih =>
      rcases Option.bind_eq_some_iff.mp h with ⟨d, hd, h⟩
      rcases Option.bind_eq_some_iff.mp h with ⟨others, hothers, h⟩
      cases h
      exact List.forall_mem_cons.mpr ⟨digitValue?_lt hd, ih hothers⟩
  | case4 c rest _ _ ih =>
      rcases Option.bind_eq_some_iff.mp h with ⟨d, hd, h⟩
      rcases Option.bind_eq_some_iff.mp h with ⟨others, hothers, h⟩
      cases h
      exact List.forall_mem_cons.mpr ⟨digitValue?_lt hd, ih hothers⟩

theorem unsigned_lt {s : List Char} {n : Nat} (h : unsigned s = .ok n) : n < 10 ^ maxDigits := by
  unfold unsigned at h
  split at h
  · cases h
  · next ds hds =>
      split at h
      · next hlength =>
          cases h
          calc
            ofDigits ds < 10 ^ ds.length := ofDigits_lt (groupedDigits?_lt hds)
            _ ≤ 10 ^ maxDigits := Nat.pow_le_pow_right (by decide) hlength
      · cases h

theorem integer_lt {s : List Char} {n : Int} (h : integer s = .ok n) :
    n.toNat < 10 ^ maxDigits := by
  unfold integer at h
  split at h
  · rcases map_eq_ok_iff.mp h with ⟨m, hm, rfl⟩
    exact unsigned_lt hm
  · rcases map_eq_ok_iff.mp h with ⟨m, hm, rfl⟩
    have hbound := unsigned_lt hm
    have hnone : (-Int.ofNat m).toNat = 0 := by
      show (-(m : Int)).toNat = 0
      omega
    rw [hnone]
    exact Nat.zero_lt_of_lt hbound
  · rcases map_eq_ok_iff.mp h with ⟨m, hm, rfl⟩
    exact unsigned_lt hm

/-! ## Reading what was written -/

theorem digitValue?_decimalDigit : ∀ d < 10, digitValue? (decimalDigit d) = some d := by
  decide

theorem exists_digits_of_decimalOfNat (n : Nat) :
    ∃ ds, (decimalOfNat n).map digitValue? = ds.map some ∧ ofDigits ds = n := by
  fun_induction decimalOfNat n with
  | case1 n hn => exact ⟨[n], by simp [digitValue?_decimalDigit n hn], by simp [ofDigits]⟩
  | case2 n hn ih =>
      rcases ih with ⟨ds, hds, hn⟩
      have hlast : n % 10 < 10 := Nat.mod_lt n (by decide)
      refine ⟨ds ++ [n % 10], ?_, ?_⟩
      · rw [List.map_append, hds, List.map_append]
        simp [digitValue?_decimalDigit _ hlast]
      · rw [ofDigits_append_singleton, hn, Nat.div_add_mod]

theorem groupedDigits?_of_digits {s : List Char} {ds : List Nat} (hne : s ≠ [])
    (h : s.map digitValue? = ds.map some) : groupedDigits? s = some ds := by
  have hunderscore : digitValue? '_' = none := by decide
  fun_induction groupedDigits? s generalizing ds with
  | case1 => exact absurd rfl hne
  | case2 c =>
      cases ds with
      | nil => cases h
      | cons d ds =>
          injection h with hc hrest
          rw [List.map_nil, eq_comm, List.map_eq_nil_iff] at hrest
          rw [hc, hrest]
          rfl
  | case3 c rest _ =>
      cases ds with
      | nil => cases h
      | cons d ds =>
          injection h with _ hrest
          cases ds with
          | nil => cases hrest
          | cons next ds =>
              injection hrest with hmark _
              rw [hunderscore] at hmark
              cases hmark
  | case4 c rest hsingle _ ih =>
      cases ds with
      | nil => cases h
      | cons d ds =>
          injection h with hc hrest
          rw [hc, ih (by simpa using hsingle) hrest]
          rfl

theorem length_decimalOfNat_le {n e : Nat} (he : 0 < e) (h : n < 10 ^ e) :
    (decimalOfNat n).length ≤ e := by
  rw [decimalOfNat_eq_toDigits]
  exact Nat.toDigits_length 10 n e he h

theorem decimalOfNat_ne_nil (n : Nat) : decimalOfNat n ≠ [] := by
  unfold decimalOfNat
  split
  · exact List.cons_ne_nil _ _
  · simp

def digitCharacters : List Char :=
  (List.range 10).map decimalDigit

theorem mem_decimalOfNat {n : Nat} {c : Char} (h : c ∈ decimalOfNat n) :
    c ∈ digitCharacters := by
  fun_induction decimalOfNat n with
  | case1 n hn =>
      rw [List.mem_singleton.mp h]
      exact List.mem_map_of_mem (List.mem_range.mpr hn)
  | case2 n hn ih =>
      rcases List.mem_append.mp h with hfront | hlast
      · exact ih hfront
      · rw [List.mem_singleton.mp hlast]
        exact List.mem_map_of_mem (List.mem_range.mpr (Nat.mod_lt n (by decide)))

theorem unsigned_decimalOfNat {n : Nat} (h : n < 10 ^ maxDigits) :
    unsigned (decimalOfNat n) = .ok n := by
  rcases exists_digits_of_decimalOfNat n with ⟨ds, hds, hn⟩
  have hlength : ds.length ≤ maxDigits := by
    have hsame := congrArg List.length hds
    rw [List.length_map, List.length_map] at hsame
    rw [← hsame]
    exact length_decimalOfNat_le (by decide) h
  rw [unsigned, groupedDigits?_of_digits (decimalOfNat_ne_nil n) hds]
  dsimp only
  rw [if_pos hlength, hn]

theorem integer_decimalOfNat {n : Nat} (h : n < 10 ^ maxDigits) :
    integer (decimalOfNat n) = .ok n := by
  have hplain : digitCharacters.all (fun c => !isBlank c && c != '+' && c != '-') = true := by
    decide
  have hmark : ∀ c ∈ decimalOfNat n, isBlank c = false ∧ c ≠ '+' ∧ c ≠ '-' := by
    intro c hc
    simpa [and_assoc] using List.all_eq_true.mp hplain c (mem_decimalOfNat hc)
  have htrim : trim (decimalOfNat n) = decimalOfNat n := by
    apply trim_of_isTrimmed
    constructor
    · intro c hc
      exact (hmark c (List.mem_of_mem_head? hc)).left
    · intro c hc
      exact (hmark c (List.mem_of_mem_getLast? hc)).left
  rw [integer, htrim]
  split
  · next rest hsign =>
      have hmem : '+' ∈ decimalOfNat n := by simp [hsign]
      exact absurd rfl (hmark '+' hmem).right.left
  · next rest hsign =>
      have hmem : '-' ∈ decimalOfNat n := by simp [hsign]
      exact absurd rfl (hmark '-' hmem).right.right
  · rw [unsigned_decimalOfNat h]
    rfl

end Text
end FileStyle
