import FileStyle.Proofs.Written

/-!
# The tokens of encoded text

Each character of an encoded text is read as one token: a line terminator, white space,
the byte-order mark, or a valid token with just the bytes of this character. Every
character set reads its own encoding in this way.
-/

namespace FileStyle

def Token.ofChar (c : Char) (bytes : List UInt8) : Token :=
  if c = '\r' then newline .cr
  else if c = '\n' then newline .lf
  else if c = ' ' then indent .space
  else if c = '\t' then indent .tab
  else if c = '\ufeff' then bom
  else valid bytes

namespace Token

theorem eq_iff_byte_eq {c d : Char} (hc : c.toNat < 0x100) (hd : d.toNat < 0x100) :
    c = d ↔ UInt8.ofNat c.toNat = UInt8.ofNat d.toNat := by
  constructor
  · rintro rfl
    rfl
  · intro h
    have hbyte := congrArg UInt8.toNat h
    rw [UInt8.toNat_ofNat', UInt8.toNat_ofNat'] at hbyte
    have hnat : c.toNat = d.toNat := by omega
    rw [← Char.ofNat_toNat c, hnat, Char.ofNat_toNat]

theorem ofChar_of_byte {c : Char} (h : c.toNat < 0x100) (bytes : List UInt8) :
    ofChar c bytes = (ofAscii? (UInt8.ofNat c.toNat)).getD (valid bytes) := by
  have hcr : c = '\r' ↔ UInt8.ofNat c.toNat = 0x0D := eq_iff_byte_eq h (by decide)
  have hlf : c = '\n' ↔ UInt8.ofNat c.toNat = 0x0A := eq_iff_byte_eq h (by decide)
  have hspace : c = ' ' ↔ UInt8.ofNat c.toNat = 0x20 := eq_iff_byte_eq h (by decide)
  have htab : c = '\t' ↔ UInt8.ofNat c.toNat = 0x09 := eq_iff_byte_eq h (by decide)
  have hbom : c ≠ '\ufeff' := by
    rintro rfl
    exact absurd h (by decide)
  simp only [ofChar, ofAscii?, hcr, hlf, hspace, htab, if_neg hbom]
  split
  · rfl
  split
  · rfl
  split
  · rfl
  split
  · rfl
  · rfl

theorem ofChar_of_large {c : Char} (h : 0x80 ≤ c.toNat) (bytes : List UInt8) :
    ofChar c bytes = if c = '\ufeff' then bom else valid bytes := by
  have hne : ∀ d : Char, d.toNat < 0x80 → c ≠ d := by
    rintro d hd rfl
    omega
  rw [ofChar, if_neg (hne '\r' (by decide)), if_neg (hne '\n' (by decide)),
    if_neg (hne ' ' (by decide)), if_neg (hne '\t' (by decide))]

end Token

namespace Decoder

open Token

theorem next?_of_unit {d : Decoder} {unit : List UInt8} (h : unit.length = d.unit)
    (rest : List UInt8) :
    d.next? (unit ++ rest) =
      match d.lead unit with
      | .token t => some (t, rest)
      | .more count finish => some (finish (rest.take count), rest.drop count) := by
  have htake : (unit ++ rest).take d.unit = unit := List.take_left' h
  have hdrop : (unit ++ rest).drop d.unit = rest := List.drop_left' h
  have hpos := d.unit_pos
  cases hunit : unit with
  | nil =>
      have hzero : d.unit = 0 := by simp [← h, hunit]
      omega
  | cons b bs =>
      rw [hunit, List.cons_append] at htake hdrop
      cases hlead : d.lead (b :: bs) with
      | token t => simp only [List.cons_append, next?, htake, hdrop, hlead]
      | more count finish => simp only [List.cons_append, next?, htake, hdrop, hlead]

theorem tokens_flatMap {d : Decoder} {encode : Char → List UInt8} {text : List Char}
    (h : ∀ c ∈ text, ∀ rest,
      d.next? (encode c ++ rest) = some (ofChar c (encode c), rest)) :
    d.tokens (text.flatMap encode) = text.map fun c => ofChar c (encode c) := by
  induction text with
  | nil => simp
  | cons c text ih =>
      have hfirst := h c List.mem_cons_self (text.flatMap encode)
      have hmore : ∀ c' ∈ text, ∀ rest,
          d.next? (encode c' ++ rest) = some (ofChar c' (encode c'), rest) :=
        fun c' hc' => h c' (List.mem_cons_of_mem c hc')
      rw [List.flatMap_cons, tokens_of_next? hfirst, ih hmore, List.map_cons]

end Decoder

/-!
## One byte for each character
-/

theorem SingleByte.next?_char {accepts : UInt8 → Bool} {c : Char} (h : c.toNat < 0x100)
    (hok : accepts (UInt8.ofNat c.toNat) = true) (rest : List UInt8) :
    (decoder accepts).next? ([UInt8.ofNat c.toNat] ++ rest) =
      some (Token.ofChar c [UInt8.ofNat c.toNat], rest) := by
  rw [Decoder.next?_of_unit rfl, Token.ofChar_of_byte h]
  cases hascii : Token.ofAscii? (UInt8.ofNat c.toNat) with
  | none => simp [decoder, hascii, hok]
  | some t => simp [decoder, hascii]

theorem SingleByte.isLatin1_of_char {c : Char}
    (h : c.toNat < 0x7F ∨ 0xA1 ≤ c.toNat ∧ c.toNat ≤ 0xFF) :
    isLatin1 (UInt8.ofNat c.toNat) = true := by
  have hbyte : (UInt8.ofNat c.toNat).toNat = c.toNat := Utf8.toNat_byte (by omega)
  simp only [isLatin1, Bool.or_eq_true, decide_eq_true_eq, UInt8.lt_iff_toNat_lt, hbyte,
    UInt8.reduceToNat]
  omega

/-!
## UTF-8
-/

namespace Utf8

theorem announced?_two {p : Nat} (h : p < 32) : announced? (byte (0xC0 + p)) = some 1 := by
  revert p
  decide

theorem announced?_three {p : Nat} (h : p < 16) : announced? (byte (0xE0 + p)) = some 2 := by
  revert p
  decide

theorem announced?_four {p : Nat} (h : p < 8) : announced? (byte (0xF0 + p)) = some 3 := by
  revert p
  decide

theorem encode_eq_cons {c : Char} (h : 0x80 ≤ c.toNat) :
    ∃ b more, encode c = b :: more ∧ announced? b = some more.length := by
  have hvalid := toNat_char_cases c
  rw [encode, encodeNat, if_neg (by omega)]
  split
  · exact ⟨_, _, rfl, announced?_two (by omega)⟩
  split
  · exact ⟨_, _, rfl, announced?_three (by omega)⟩
  · exact ⟨_, _, rfl, announced?_four (by omega)⟩

theorem lead_of_announced? {b : UInt8} {count : Nat} (h : announced? b = some count) :
    lead [b] = .more count fun rest => tokenOf (b :: rest) := by
  have hb : 0xC0 ≤ b.toNat := by
    simp only [announced?, UInt8.le_iff_toNat_le, UInt8.reduceToNat] at h
    split at h
    · omega
    split at h
    · omega
    split at h
    · omega
    · cases h
  have hascii : Token.ofAscii? b = none := by
    cases ht : Token.ofAscii? b with
    | none => rfl
    | some t =>
        rcases Token.written?_of_ofAscii? none ht with ⟨-, hsmall⟩
        omega
  have hlarge : ¬ b < 0x80 := by
    simp only [UInt8.lt_iff_toNat_lt, UInt8.reduceToNat]
    omega
  simp only [lead, hascii, if_neg hlarge, h]

theorem tokenOf_encode {c : Char} (h : 0x80 ≤ c.toNat) :
    tokenOf (encode c) = Token.ofChar c (encode c) := by
  simp only [tokenOf, char?_encode, Token.ofChar_of_large h]

theorem next?_char (c : Char) (rest : List UInt8) :
    decoder.next? (encode c ++ rest) = some (Token.ofChar c (encode c), rest) := by
  by_cases hsmall : c.toNat < 0x80
  · have hencode : encode c = [byte c.toNat] := by rw [encode, encodeNat, if_pos hsmall]
    have hbyte : byte c.toNat < 0x80 := by
      rw [UInt8.lt_iff_toNat_lt, toNat_byte (by omega)]
      exact hsmall
    rw [hencode, Decoder.next?_of_unit rfl, Token.ofChar_of_byte (by omega)]
    cases hascii : Token.ofAscii? (byte c.toNat) with
    | none =>
        have hascii' : Token.ofAscii? (UInt8.ofNat c.toNat) = none := hascii
        simp [decoder, lead, hascii, hascii', hbyte]
    | some t =>
        have hascii' : Token.ofAscii? (UInt8.ofNat c.toNat) = some t := hascii
        simp [decoder, lead, hascii, hascii']
  · have hlarge : 0x80 ≤ c.toNat := Nat.le_of_not_lt hsmall
    rcases encode_eq_cons hlarge with ⟨b, more, hencode, hcount⟩
    have htoken := tokenOf_encode hlarge
    rw [hencode] at htoken ⊢
    have hlead : decoder.lead [b] = .more more.length fun rest => tokenOf (b :: rest) :=
      lead_of_announced? hcount
    have hunit : [b].length = decoder.unit := rfl
    have hnext := Decoder.next?_of_unit hunit (more ++ rest)
    rw [hlead] at hnext
    rw [List.cons_append, ← List.singleton_append, hnext]
    simp [htoken]

end Utf8

/-!
## UTF-16
-/

namespace Utf16

theorem split?_pair (order : ByteOrder) (high low : UInt8) :
    order.split? (order.pair high low) = some (high, low) := by
  cases order <;> rfl

theorem length_pair (order : ByteOrder) (high low : UInt8) :
    (order.pair high low).length = 2 := by
  cases order <;> rfl

theorem isHighSurrogate_iff (high : UInt8) :
    isHighSurrogate high = true ↔ 0xD8 ≤ high.toNat ∧ high.toNat ≤ 0xDB := by
  simp only [isHighSurrogate, Bool.and_eq_true, decide_eq_true_eq, UInt8.le_iff_toNat_le,
    UInt8.reduceToNat]

theorem isLowSurrogate_iff (high : UInt8) :
    isLowSurrogate high = true ↔ 0xDC ≤ high.toNat ∧ high.toNat ≤ 0xDF := by
  simp only [isLowSurrogate, Bool.and_eq_true, decide_eq_true_eq, UInt8.le_iff_toNat_le,
    UInt8.reduceToNat]

theorem lead_pair (order : ByteOrder) (high low : UInt8) :
    lead order (order.pair high low) =
      if high = 0xFE ∧ low = 0xFF then
        .token .bom
      else if isHighSurrogate high then
        .more 2 (pairToken order (order.pair high low))
      else if high = 0 then
        .token ((Token.ofAscii? low).getD (.valid (order.pair high low)))
      else
        .token (.valid (order.pair high low)) := by
  rw [lead, split?_pair]

theorem eq_bom_of_toNat {c : Char} (h : c.toNat = 0xFEFF) : c = '\ufeff' := by
  rw [← Char.ofNat_toNat c, h]

theorem lead_unitBytes (order : ByteOrder) {c : Char} (h : c.toNat < 0x10000) :
    lead order (unitBytes order c.toNat) =
      .token (Token.ofChar c (unitBytes order c.toNat)) := by
  have hvalid := Utf8.toNat_char_cases c
  have hhigh : (UInt8.ofNat (c.toNat / 0x100)).toNat = c.toNat / 0x100 :=
    Utf8.toNat_byte (by omega)
  have hlow : (UInt8.ofNat (c.toNat % 0x100)).toNat = c.toNat % 0x100 :=
    Utf8.toNat_byte (by omega)
  have hzero : UInt8.ofNat (c.toNat / 0x100) = 0 ↔ c.toNat / 0x100 = 0 := by
    rw [← UInt8.toNat_inj, hhigh]
    rfl
  have hsurrogate : ¬ isHighSurrogate (UInt8.ofNat (c.toNat / 0x100)) = true := by
    rw [isHighSurrogate_iff, hhigh]
    omega
  by_cases hbom : c = '\ufeff'
  · subst hbom
    cases order <;> rfl
  · have hmark : ¬ (UInt8.ofNat (c.toNat / 0x100) = 0xFE ∧
        UInt8.ofNat (c.toNat % 0x100) = 0xFF) := by
      simp only [← UInt8.toNat_inj, hhigh, hlow, UInt8.reduceToNat]
      intro hboth
      exact hbom (eq_bom_of_toNat (by omega))
    rw [unitBytes, lead_pair, if_neg hmark, if_neg hsurrogate]
    by_cases hsmall : c.toNat < 0x100
    · have hbyte : c.toNat % 0x100 = c.toNat := Nat.mod_eq_of_lt hsmall
      rw [if_pos (hzero.mpr (by omega)), Token.ofChar_of_byte hsmall, hbyte]
    · have hlarge : ¬ UInt8.ofNat (c.toNat / 0x100) = 0 := by
        rw [hzero]
        omega
      rw [if_neg hlarge, Token.ofChar_of_large (by omega), if_neg hbom]

theorem next?_surrogates (order : ByteOrder) {m : Nat} (h : m < 0x100000)
    (rest : List UInt8) :
    (decoder order).next? (unitBytes order (0xD800 + m / 0x400) ++
        (unitBytes order (0xDC00 + m % 0x400) ++ rest)) =
      some (.valid (unitBytes order (0xD800 + m / 0x400) ++
        unitBytes order (0xDC00 + m % 0x400)), rest) := by
  have hhigh : (UInt8.ofNat ((0xD800 + m / 0x400) / 0x100)).toNat =
      (0xD800 + m / 0x400) / 0x100 := Utf8.toNat_byte (by omega)
  have hlow : (UInt8.ofNat ((0xDC00 + m % 0x400) / 0x100)).toNat =
      (0xDC00 + m % 0x400) / 0x100 := Utf8.toNat_byte (by omega)
  have hfirst : isHighSurrogate (UInt8.ofNat ((0xD800 + m / 0x400) / 0x100)) = true := by
    rw [isHighSurrogate_iff, hhigh]
    omega
  have hsecond : isLowSurrogate (UInt8.ofNat ((0xDC00 + m % 0x400) / 0x100)) = true := by
    rw [isLowSurrogate_iff, hlow]
    omega
  have hmark : ¬ (UInt8.ofNat ((0xD800 + m / 0x400) / 0x100) = 0xFE ∧
      UInt8.ofNat ((0xD800 + m / 0x400) % 0x100) = 0xFF) := by
    simp only [← UInt8.toNat_inj, hhigh, UInt8.reduceToNat]
    omega
  have hlead : (decoder order).lead (unitBytes order (0xD800 + m / 0x400)) =
      .more 2 (pairToken order (unitBytes order (0xD800 + m / 0x400))) := by
    change lead order (unitBytes order (0xD800 + m / 0x400)) = _
    rw [unitBytes, lead_pair, if_neg hmark, if_pos hfirst]
  have hlength : (unitBytes order (0xDC00 + m % 0x400)).length = 2 :=
    length_pair order _ _
  rw [Decoder.next?_of_unit (length_pair order _ _), hlead]
  simp only [List.take_left' hlength, List.drop_left' hlength]
  rw [pairToken]
  simp only [unitBytes, split?_pair, if_pos hsecond]

theorem next?_char (order : ByteOrder) (c : Char) (rest : List UInt8) :
    (decoder order).next? (encode order c ++ rest) =
      some (Token.ofChar c (encode order c), rest) := by
  have hvalid := Utf8.toNat_char_cases c
  by_cases hunit : c.toNat < 0x10000
  · have hlead : (decoder order).lead (unitBytes order c.toNat) =
        .token (Token.ofChar c (unitBytes order c.toNat)) := lead_unitBytes order hunit
    rw [encode, if_pos hunit, Decoder.next?_of_unit (length_pair order _ _), hlead]
  · have hbom : c ≠ '\ufeff' := by
      rintro rfl
      exact hunit (by decide)
    rw [encode, if_neg hunit, List.append_assoc, next?_surrogates order (by omega),
      Token.ofChar_of_large (by omega), if_neg hbom]

end Utf16
end FileStyle
