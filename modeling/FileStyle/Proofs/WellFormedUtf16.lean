import FileStyle.Proofs.CharacterTokens
import FileStyle.Proofs.Delivery

/-!
# Well-formed UTF-16

A file of units is well-formed when no byte is left over and every surrogate belongs to a pair
of a high one and a low one behind it. Main statement: a file has no invalid token just when
no byte is left over and every high surrogate has its partner. So a well-formed file has none,
and a file without invalid tokens is well-formed unless a low surrogate stands alone.
-/

namespace FileStyle

theorem Token.ofAscii?_ne_invalid (b : UInt8) (part : List UInt8) :
    ofAscii? b ≠ some (invalid part) := by
  intro h
  unfold ofAscii? at h
  split at h
  · cases h
  split at h
  · cases h
  split at h
  · cases h
  split at h
  · cases h
  · cases h

namespace Utf16

/-!
## Units and surrogates
-/

def unitOf (high low : UInt8) : UInt16 :=
  UInt16.ofNat (high.toNat * 0x100 + low.toNat)

def units (order : ByteOrder) : List UInt8 → List UInt16
  | first :: second :: rest =>
      match order with
      | .bigEndian => unitOf first second :: units order rest
      | .littleEndian => unitOf second first :: units order rest
  | _ => []

def IsHigh (u : UInt16) : Prop :=
  0xD800 ≤ u ∧ u ≤ 0xDBFF

def IsLow (u : UInt16) : Prop :=
  0xDC00 ≤ u ∧ u ≤ 0xDFFF

def HasUnpairedHigh (us : List UInt16) : Prop :=
  ∃ before u after, us = before ++ u :: after ∧ IsHigh u ∧ ¬ ∃ v ∈ after.head?, IsLow v

def HasUnpairedLow (us : List UInt16) : Prop :=
  ∃ before v after, us = before ++ v :: after ∧ IsLow v ∧ ¬ ∃ u ∈ before.getLast?, IsHigh u

structure WellFormed (order : ByteOrder) (bytes : List UInt8) : Prop where
  whole : 2 ∣ bytes.length
  high : ¬ HasUnpairedHigh (units order bytes)
  low : ¬ HasUnpairedLow (units order bytes)

theorem toNat_unitOf (high low : UInt8) :
    (unitOf high low).toNat = high.toNat * 0x100 + low.toNat := by
  have hhigh := high.toNat_lt
  have hlow := low.toNat_lt
  rw [unitOf, UInt16.toNat_ofNat']
  exact Nat.mod_eq_of_lt (by omega)

theorem isHigh_unitOf_iff {high low : UInt8} :
    IsHigh (unitOf high low) ↔ isHighSurrogate high = true := by
  have hlow := low.toNat_lt
  rw [isHighSurrogate_iff, IsHigh, UInt16.le_iff_toNat_le, UInt16.le_iff_toNat_le,
    toNat_unitOf]
  simp only [UInt16.reduceToNat]
  omega

theorem isLow_unitOf_iff {high low : UInt8} :
    IsLow (unitOf high low) ↔ isLowSurrogate high = true := by
  have hlow := low.toNat_lt
  rw [isLowSurrogate_iff, IsLow, UInt16.le_iff_toNat_le, UInt16.le_iff_toNat_le,
    toNat_unitOf]
  simp only [UInt16.reduceToNat]
  omega

theorem IsLow.not_isHigh {u : UInt16} (h : IsLow u) : ¬ IsHigh u := by
  intro hhigh
  have hle := UInt16.le_trans h.left hhigh.right
  exact absurd hle (by decide)

theorem units_pair (order : ByteOrder) (high low : UInt8) (rest : List UInt8) :
    units order (order.pair high low ++ rest) = unitOf high low :: units order rest := by
  cases order with
  | bigEndian => rfl
  | littleEndian => rfl

theorem units_of_short (order : ByteOrder) {bytes : List UInt8} (h : bytes.length < 2) :
    units order bytes = [] := by
  match bytes with
  | [] => rfl
  | [b] => rfl
  | first :: second :: rest =>
      simp only [List.length_cons] at h
      omega

theorem exists_pair (order : ByteOrder) {bytes : List UInt8} (h : ¬ bytes.length < 2) :
    ∃ high low rest, bytes = order.pair high low ++ rest := by
  match bytes with
  | [] => exact absurd Nat.two_pos h
  | [b] => exact absurd Nat.one_lt_two h
  | first :: second :: rest =>
      cases order with
      | bigEndian => exact ⟨first, second, rest, rfl⟩
      | littleEndian => exact ⟨second, first, rest, rfl⟩

/-- How a file starts: with no whole unit, a unit that is no high surrogate, a pair of
surrogates, or a high surrogate without its partner. -/
theorem start_cases (order : ByteOrder) (bytes : List UInt8) :
    bytes.length < 2 ∨
      (∃ high low rest, bytes = order.pair high low ++ rest ∧ ¬ isHighSurrogate high = true) ∨
      (∃ high low high' low' rest,
        bytes = order.pair high low ++ (order.pair high' low' ++ rest) ∧
          isHighSurrogate high = true ∧ isLowSurrogate high' = true) ∨
      ∃ high low rest, bytes = order.pair high low ++ rest ∧ isHighSurrogate high = true ∧
        ¬ ∃ v ∈ (units order rest).head?, IsLow v := by
  by_cases hshort : bytes.length < 2
  · exact .inl hshort
  rcases exists_pair order hshort with ⟨high, low, rest, rfl⟩
  by_cases hhigh : isHighSurrogate high = true
  · by_cases hpaired : ∃ v ∈ (units order rest).head?, IsLow v
    · rcases hpaired with ⟨v, hv, hlow⟩
      by_cases hrest : rest.length < 2
      · rw [units_of_short order hrest] at hv
        cases hv
      · rcases exists_pair order hrest with ⟨high', low', more, rfl⟩
        rw [units_pair] at hv
        cases hv
        exact .inr (.inr (.inl
          ⟨high, low, high', low', more, rfl, hhigh, isLow_unitOf_iff.mp hlow⟩))
    · exact .inr (.inr (.inr ⟨high, low, rest, rfl, hhigh, hpaired⟩))
  · exact .inr (.inl ⟨high, low, rest, rfl, hhigh⟩)

namespace HasUnpairedHigh

variable {u v : UInt16} {us : List UInt16}

theorem cons_iff :
    HasUnpairedHigh (u :: us) ↔
      (IsHigh u ∧ ¬ ∃ v ∈ us.head?, IsLow v) ∨ HasUnpairedHigh us := by
  constructor
  · rintro ⟨before, w, after, heq, hhigh, halone⟩
    cases before with
    | nil =>
        cases heq
        exact .inl ⟨hhigh, halone⟩
    | cons _ before =>
        cases heq
        exact .inr ⟨before, w, after, rfl, hhigh, halone⟩
  · rintro (⟨hhigh, halone⟩ | ⟨before, w, after, rfl, hhigh, halone⟩)
    · exact ⟨[], u, us, rfl, hhigh, halone⟩
    · exact ⟨u :: before, w, after, rfl, hhigh, halone⟩

theorem cons_iff_of_not_isHigh (h : ¬ IsHigh u) :
    HasUnpairedHigh (u :: us) ↔ HasUnpairedHigh us := by
  rw [cons_iff]
  constructor
  · rintro (⟨hhigh, -⟩ | hrest)
    · exact absurd hhigh h
    · exact hrest
  · exact .inr

theorem pair_iff (h : IsLow v) :
    HasUnpairedHigh (u :: v :: us) ↔ HasUnpairedHigh us := by
  rw [cons_iff, cons_iff_of_not_isHigh h.not_isHigh]
  constructor
  · rintro (⟨-, halone⟩ | hrest)
    · exact absurd ⟨v, rfl, h⟩ halone
    · exact hrest
  · exact .inr

end HasUnpairedHigh

/-!
## The first token
-/

variable {order : ByteOrder} {high low : UInt8} {rest : List UInt8}

theorem lead_of_high (h : isHighSurrogate high = true) :
    lead order (order.pair high low) = .more 2 (pairToken order (order.pair high low)) := by
  have hmark : ¬ (high = 0xFE ∧ low = 0xFF) := by
    rintro ⟨rfl, -⟩
    cases h
  rw [lead_pair, if_neg hmark, if_pos h]

theorem lead_of_not_high (order : ByteOrder) (low : UInt8) (h : ¬ isHighSurrogate high = true) :
    ∃ t, lead order (order.pair high low) = .token t ∧ ∀ part, t ≠ .invalid part := by
  rw [lead_pair, if_neg h]
  by_cases hmark : high = 0xFE ∧ low = 0xFF
  · exact ⟨.bom, if_pos hmark, by simp⟩
  · rw [if_neg hmark]
    by_cases hzero : high = 0
    · refine ⟨_, if_pos hzero, ?_⟩
      intro part hinvalid
      cases hascii : Token.ofAscii? low with
      | none =>
          rw [hascii] at hinvalid
          cases hinvalid
      | some t =>
          rw [hascii] at hinvalid
          exact Token.ofAscii?_ne_invalid low part (hascii.trans (congrArg some hinvalid))
    · exact ⟨_, if_neg hzero, by simp⟩

theorem exists_next?_of_not_high (order : ByteOrder) (low : UInt8) (rest : List UInt8)
    (h : ¬ isHighSurrogate high = true) :
    ∃ t, (decoder order).next? (order.pair high low ++ rest) = some (t, rest) ∧
      ∀ part, t ≠ .invalid part := by
  rcases lead_of_not_high order low h with ⟨t, ht, hvalid⟩
  have hlead : (decoder order).lead (order.pair high low) = .token t := ht
  refine ⟨t, ?_, hvalid⟩
  rw [Decoder.next?_of_unit (length_pair order high low), hlead]

theorem next?_of_high (h : isHighSurrogate high = true) :
    (decoder order).next? (order.pair high low ++ rest) =
      some (pairToken order (order.pair high low) (rest.take 2), rest.drop 2) := by
  have hlead : (decoder order).lead (order.pair high low) =
      .more 2 (pairToken order (order.pair high low)) := lead_of_high h
  rw [Decoder.next?_of_unit (length_pair order high low), hlead]

theorem pairToken_of_low {unit : List UInt8} (h : isLowSurrogate high = true) :
    pairToken order unit (order.pair high low) = .valid (unit ++ order.pair high low) := by
  simp only [pairToken, split?_pair, if_pos h]

theorem pairToken_of_not_low {unit : List UInt8} (h : ¬ isLowSurrogate high = true) :
    pairToken order unit (order.pair high low) = .invalid (unit ++ order.pair high low) := by
  simp only [pairToken, split?_pair, if_neg h]

theorem pairToken_of_short {unit trail : List UInt8} (h : trail.length < 2) :
    pairToken order unit trail = .invalid (unit ++ trail) := by
  match trail with
  | [] => rfl
  | [b] => rfl
  | first :: second :: more =>
      simp only [List.length_cons] at h
      omega

theorem next?_of_paired {high' : UInt8} (order : ByteOrder) (low low' : UInt8)
    (rest : List UInt8) (h : isHighSurrogate high = true) (h' : isLowSurrogate high' = true) :
    (decoder order).next? (order.pair high low ++ (order.pair high' low' ++ rest)) =
      some (.valid (order.pair high low ++ order.pair high' low'), rest) := by
  have hlength := length_pair order high' low'
  rw [next?_of_high h, List.take_left' hlength, List.drop_left' hlength, pairToken_of_low h']

theorem exists_next?_of_unpaired (low : UInt8) (h : isHighSurrogate high = true)
    (halone : ¬ ∃ v ∈ (units order rest).head?, IsLow v) :
    ∃ part behind, (decoder order).next? (order.pair high low ++ rest) =
      some (.invalid part, behind) := by
  rw [next?_of_high h]
  by_cases hshort : rest.length < 2
  · have htake : (rest.take 2).length < 2 := by
      rw [List.length_take]
      omega
    exact ⟨_, _, by rw [pairToken_of_short htake]⟩
  · rcases exists_pair order hshort with ⟨high', low', more, rfl⟩
    have hlow : ¬ isLowSurrogate high' = true := by
      intro hlow
      rw [units_pair] at halone
      exact halone ⟨_, rfl, isLow_unitOf_iff.mpr hlow⟩
    rw [List.take_left' (length_pair order high' low'), pairToken_of_not_low hlow]
    exact ⟨_, _, rfl⟩

/-!
## The tokens of a file
-/

theorem not_forall_of_next? {d : Decoder} {bytes rest part : List UInt8}
    (h : d.next? bytes = some (.invalid part, rest)) :
    ¬ ∀ part, .invalid part ∉ d.tokens bytes := by
  intro hnone
  rw [Decoder.tokens_of_next? h] at hnone
  exact hnone part List.mem_cons_self

theorem forall_iff_of_next? {d : Decoder} {bytes rest : List UInt8} {t : Token}
    (h : d.next? bytes = some (t, rest)) (hvalid : ∀ part, t ≠ .invalid part) :
    (∀ part, .invalid part ∉ d.tokens bytes) ↔ ∀ part, .invalid part ∉ d.tokens rest := by
  rw [Decoder.tokens_of_next? h]
  apply forall_congr'
  intro part
  rw [List.mem_cons, not_or]
  exact and_iff_right (hvalid part).symm

theorem forall_not_invalid_iff_of_short (order : ByteOrder) {bytes : List UInt8}
    (h : bytes.length < 2) :
    (∀ part, .invalid part ∉ (decoder order).tokens bytes) ↔ 2 ∣ bytes.length := by
  match bytes with
  | [] => simp
  | [b] =>
      have hnext : (decoder order).next? [b] = some (.invalid [b], []) := rfl
      exact iff_of_false (not_forall_of_next? hnext) (by simp)
  | _ :: _ :: _ =>
      simp only [List.length_cons] at h
      omega

theorem two_dvd_length_pair_append (order : ByteOrder) (high low : UInt8) (rest : List UInt8) :
    2 ∣ (order.pair high low ++ rest).length ↔ 2 ∣ rest.length := by
  rw [List.length_append, length_pair]
  exact Nat.dvd_add_right (Nat.dvd_refl 2)

/-- The tokens see whether a byte is left over and whether a high surrogate lacks its
partner, since up to the first invalid token each takes the bytes of whole units. -/
theorem forall_not_invalid_iff (order : ByteOrder) (bytes : List UInt8) :
    (∀ part, .invalid part ∉ (decoder order).tokens bytes) ↔
      2 ∣ bytes.length ∧ ¬ HasUnpairedHigh (units order bytes) := by
  induction bytes using (measure List.length).wf.induction with
  | _ bytes ih =>
      rcases start_cases order bytes with hshort | ⟨high, low, rest, rfl, hhigh⟩ |
        ⟨high, low, high', low', rest, rfl, hhigh, hlow⟩ | ⟨high, low, rest, rfl, hhigh, halone⟩
      · have hnone : ¬ HasUnpairedHigh (units order bytes) := by
          rw [units_of_short order hshort]
          simp [HasUnpairedHigh]
        rw [forall_not_invalid_iff_of_short order hshort, and_iff_left hnone]
      · rcases exists_next?_of_not_high order low rest hhigh with ⟨t, hnext, hvalid⟩
        have hunit : ¬ IsHigh (unitOf high low) := mt isHigh_unitOf_iff.mp hhigh
        rw [forall_iff_of_next? hnext hvalid, ih rest (Decoder.length_lt_of_next? hnext),
          units_pair, HasUnpairedHigh.cons_iff_of_not_isHigh hunit, two_dvd_length_pair_append]
      · have hnext := next?_of_paired order low low' rest hhigh hlow
        have hunit : IsLow (unitOf high' low') := isLow_unitOf_iff.mpr hlow
        rw [forall_iff_of_next? hnext (by simp), ih rest (Decoder.length_lt_of_next? hnext),
          units_pair, units_pair, HasUnpairedHigh.pair_iff hunit, two_dvd_length_pair_append,
          two_dvd_length_pair_append]
      · rcases exists_next?_of_unpaired low hhigh halone with ⟨part, behind, hnext⟩
        refine iff_of_false (not_forall_of_next? hnext) ?_
        rintro ⟨-, hnone⟩
        rw [units_pair] at hnone
        exact hnone (HasUnpairedHigh.cons_iff.mpr
          (.inl ⟨isHigh_unitOf_iff.mpr hhigh, halone⟩))

/-- A file has no invalid token just when it has no byte left over and no high surrogate
without its partner. Every well-formed file is so, and every file that is so is well-formed,
unless it has a low surrogate without its partner: such a unit is taken for a character. -/
theorem tokens_accept_paired_highs (order : ByteOrder) (bytes : List UInt8) :
    ((∀ part, .invalid part ∉ (decoder order).tokens bytes) ↔
        2 ∣ bytes.length ∧ ¬ HasUnpairedHigh (units order bytes)) ∧
      (WellFormed order bytes → ∀ part, .invalid part ∉ (decoder order).tokens bytes) ∧
      (¬ HasUnpairedLow (units order bytes) →
        ((∀ part, .invalid part ∉ (decoder order).tokens bytes) ↔ WellFormed order bytes)) := by
  have hiff := forall_not_invalid_iff order bytes
  refine ⟨hiff, ?_, ?_⟩
  · intro hwell
    exact hiff.mpr ⟨hwell.whole, hwell.high⟩
  · intro hlow
    constructor
    · intro hnone
      rcases hiff.mp hnone with ⟨hwhole, hhigh⟩
      exact ⟨hwhole, hhigh, hlow⟩
    · intro hwell
      exact hiff.mpr ⟨hwell.whole, hwell.high⟩

/-- A pair of surrogates in big-endian order, and a high surrogate before a letter. -/
theorem tokens_accept_paired_highs_of_surrogates :
    (¬ HasUnpairedLow (units .bigEndian [0xD8, 0x3D, 0xDE, 0x00]) ∧
      WellFormed .bigEndian [0xD8, 0x3D, 0xDE, 0x00] ∧
      ∀ part, .invalid part ∉ (decoder .bigEndian).tokens [0xD8, 0x3D, 0xDE, 0x00]) ∧
    ¬ HasUnpairedLow (units .bigEndian [0xD8, 0x3D, 0x00, 0x61]) ∧
      ¬ WellFormed .bigEndian [0xD8, 0x3D, 0x00, 0x61] ∧
      ¬ ∀ part, .invalid part ∉ (decoder .bigEndian).tokens [0xD8, 0x3D, 0x00, 0x61] := by
  have hpair : units .bigEndian [0xD8, 0x3D, 0xDE, 0x00] = [0xD83D, 0xDE00] := by decide
  have hletter : units .bigEndian [0xD8, 0x3D, 0x00, 0x61] = [0xD83D, 0x61] := by decide
  have hlow : IsLow 0xDE00 := ⟨by decide, by decide⟩
  have hhigh : IsHigh 0xD83D := ⟨by decide, by decide⟩
  have hnone : ¬ IsLow 0x61 := fun h => absurd h.left (by decide)
  have hpaired : ¬ HasUnpairedLow (units .bigEndian [0xD8, 0x3D, 0xDE, 0x00]) := by
    rw [hpair]
    rintro ⟨before, v, after, heq, hv, halone⟩
    match before with
    | [] =>
        cases heq
        exact hv.not_isHigh hhigh
    | [u] =>
        cases heq
        exact halone ⟨_, rfl, hhigh⟩
    | _ :: _ :: _ => simp at heq
  have hfree : ¬ HasUnpairedLow (units .bigEndian [0xD8, 0x3D, 0x00, 0x61]) := by
    rw [hletter]
    rintro ⟨before, v, after, heq, hv, -⟩
    match before with
    | [] =>
        cases heq
        exact hv.not_isHigh hhigh
    | [u] =>
        cases heq
        exact hnone hv
    | _ :: _ :: _ => simp at heq
  have hwell : WellFormed .bigEndian [0xD8, 0x3D, 0xDE, 0x00] := by
    refine ⟨by decide, ?_, hpaired⟩
    rw [hpair, HasUnpairedHigh.pair_iff hlow]
    simp [HasUnpairedHigh]
  have hill : ¬ WellFormed .bigEndian [0xD8, 0x3D, 0x00, 0x61] := by
    intro h
    apply h.high
    rw [hletter]
    refine ⟨[], 0xD83D, [0x61], rfl, hhigh, ?_⟩
    rintro ⟨v, hv, hlow⟩
    cases hv
    exact hnone hlow
  rcases tokens_accept_paired_highs .bigEndian [0xD8, 0x3D, 0xDE, 0x00] with ⟨-, haccepts, -⟩
  rcases tokens_accept_paired_highs .bigEndian [0xD8, 0x3D, 0x00, 0x61] with ⟨-, -, hiff⟩
  exact ⟨⟨hpaired, hwell, haccepts hwell⟩, hfree, hill, mt (hiff hfree).mp hill⟩

/-- A low surrogate that stands alone is ill-formed, but a valid token. -/
theorem tokens_of_lone_low_surrogate :
    (decoder .littleEndian).tokens [0x00, 0xDC] = [.valid [0x00, 0xDC]] ∧
      ¬ ((∀ part, .invalid part ∉ (decoder .littleEndian).tokens [0x00, 0xDC]) ↔
        WellFormed .littleEndian [0x00, 0xDC]) := by
  have hnext : (decoder .littleEndian).next? [0x00, 0xDC] =
      some (.valid [0x00, 0xDC], []) := by
    decide
  have htokens : (decoder .littleEndian).tokens [0x00, 0xDC] = [.valid [0x00, 0xDC]] := by
    rw [Decoder.tokens_of_next? hnext, Decoder.tokens_nil]
  refine ⟨htokens, ?_⟩
  rw [htokens]
  intro hiff
  have hwell := hiff.mp (by simp)
  exact hwell.low ⟨[], 0xDC00, [], by decide, ⟨by decide, by decide⟩, by simp⟩

end Utf16
end FileStyle
