import FileStyle.Proofs.CharacterTokens
import FileStyle.Proofs.Delivery

/-!
# Well-formed UTF-8

Bytes are well-formed when they are the encoding of a text. Every token of a file is either
that of a character, in front of which the file has just the bytes of this character, or
invalid. Main statement: a file without invalid tokens is well-formed, a well-formed file has
one token for each of its characters, and in any file the tokens of characters stand where
the bytes of these characters are.
-/

namespace FileStyle

/-!
## Where a token comes from
-/

namespace Decoder

variable {d : Decoder} {bytes rest : List UInt8} {t : Token}

/-- The bytes of the first token come first, and if it is not the last token, nothing behind
them has a part in it. -/
theorem exists_part_of_next? (h : d.next? bytes = some (t, rest)) :
    ∃ part, bytes = part ++ rest ∧
      (rest ≠ [] → ∀ more, d.next? (part ++ more) = some (t, more)) := by
  have hlong : ∀ {count : Nat} {behind : List UInt8}, behind.drop count ≠ [] →
      (behind.take count).length = count := by
    intro count behind hne
    have hlength := List.length_pos_iff.mpr hne
    rw [List.length_drop] at hlength
    exact List.length_take_of_le (by omega)
  rcases next?_cases h with ⟨-, ⟨hlead, rfl⟩ | ⟨count, finish, hlead, rfl, rfl⟩⟩
  · refine ⟨bytes.take d.unit, (List.take_append_drop _ _).symm, ?_⟩
    intro hrest more
    rw [next?_of_unit (hlong hrest), hlead]
  · refine ⟨bytes.take d.unit ++ (bytes.drop d.unit).take count, ?_, ?_⟩
    · rw [List.append_assoc, List.take_append_drop, List.take_append_drop]
    · intro hrest more
      have hunit : bytes.drop d.unit ≠ [] := by
        intro hnil
        rw [hnil] at hrest
        exact hrest List.drop_nil
      rw [List.append_assoc, next?_of_unit (hlong hunit), hlead]
      simp only [List.take_left' (hlong hrest), List.drop_left' (hlong hrest)]

theorem exists_next?_of_tokens {ts : List Token} (h : d.tokens bytes = t :: ts) :
    ∃ rest, d.next? bytes = some (t, rest) ∧ d.tokens rest = ts := by
  rw [tokens_eq] at h
  split at h
  · cases h
  · next first rest hnext =>
      cases h
      exact ⟨rest, hnext, rfl⟩

theorem exists_split_of_tokens {before after : List Token}
    (h : d.tokens bytes = before ++ t :: after) :
    ∃ front part rest, bytes = front ++ (part ++ rest) ∧
      d.next? (part ++ rest) = some (t, rest) ∧
      d.tokens front = before ∧ d.tokens rest = after := by
  induction before generalizing bytes with
  | nil =>
      rcases exists_next?_of_tokens h with ⟨rest, hnext, hrest⟩
      rcases exists_part_of_next? hnext with ⟨part, rfl, -⟩
      exact ⟨[], part, rest, rfl, hnext, tokens_nil d, hrest⟩
  | cons first before ih =>
      rcases exists_next?_of_tokens h with ⟨behind, hfirst, hbehind⟩
      rcases exists_part_of_next? hfirst with ⟨own, rfl, hown⟩
      rcases ih hbehind with ⟨front, part, rest, rfl, hnext, hfront, hrest⟩
      have hne : front ++ (part ++ rest) ≠ [] := by
        intro hnil
        rw [hnil, tokens_nil] at hbehind
        simp at hbehind
      refine ⟨own ++ front, part, rest, (List.append_assoc _ _ _).symm, hnext, ?_, hrest⟩
      rw [tokens_of_next? (hown hne front), hfront]

end Decoder

/-!
## The tokens of characters
-/

namespace Token

theorem ofChar_cases (c : Char) (bytes : List UInt8) :
    (∃ kind, ofChar c bytes = newline kind) ∨ (∃ kind, ofChar c bytes = indent kind) ∨
      (c = '\ufeff' ∧ ofChar c bytes = bom) ∨
      (c ∉ ['\r', '\n', ' ', '\t', '\ufeff'] ∧ ofChar c bytes = valid bytes) := by
  unfold ofChar
  split
  · exact .inl ⟨_, rfl⟩
  split
  · exact .inl ⟨_, rfl⟩
  split
  · exact .inr (.inl ⟨_, rfl⟩)
  split
  · exact .inr (.inl ⟨_, rfl⟩)
  split
  · next hbom => exact .inr (.inr (.inl ⟨hbom, rfl⟩))
  · next hcr hlf hspace htab hbom =>
      exact .inr (.inr (.inr ⟨by simp [hcr, hlf, hspace, htab, hbom], rfl⟩))

theorem ofChar_ne_invalid (c : Char) (bytes part : List UInt8) :
    ofChar c bytes ≠ invalid part := by
  intro h
  rcases ofChar_cases c bytes with ⟨kind, hc⟩ | ⟨kind, hc⟩ | ⟨-, hc⟩ | ⟨-, hc⟩
  all_goals
    rw [hc] at h
    cases h

theorem of_ofChar_eq_valid {c : Char} {bytes part : List UInt8}
    (h : ofChar c bytes = valid part) :
    part = bytes ∧ c ∉ ['\r', '\n', ' ', '\t', '\ufeff'] := by
  rcases ofChar_cases c bytes with ⟨kind, hc⟩ | ⟨kind, hc⟩ | ⟨-, hc⟩ | ⟨hplain, hc⟩
  · rw [hc] at h
    cases h
  · rw [hc] at h
    cases h
  · rw [hc] at h
    cases h
  · rw [hc] at h
    cases h
    exact ⟨rfl, hplain⟩

theorem eq_of_ofChar_eq_bom {c : Char} {bytes : List UInt8} (h : ofChar c bytes = bom) :
    c = '\ufeff' := by
  rcases ofChar_cases c bytes with ⟨kind, hc⟩ | ⟨kind, hc⟩ | ⟨hbom, -⟩ | ⟨-, hc⟩
  · rw [hc] at h
    cases h
  · rw [hc] at h
    cases h
  · exact hbom
  · rw [hc] at h
    cases h

end Token

namespace Utf8

open Token

theorem encode_of_ascii {c : Char} (h : c.toNat < 0x80) : encode c = [byte c.toNat] := by
  rw [encode, encodeNat, if_pos h]

theorem ofAscii?_of_large {b : UInt8} (h : ¬ b < 0x80) : Token.ofAscii? b = none := by
  cases ht : Token.ofAscii? b with
  | none => rfl
  | some t =>
      rcases written?_of_ofAscii? none ht with ⟨-, hsmall⟩
      rw [UInt8.lt_iff_toNat_lt] at h
      exact absurd hsmall h

theorem tokenOf_cases {b : UInt8} (h : ¬ b < 0x80) (more : List UInt8) :
    tokenOf (b :: more) = .invalid (b :: more) ∨
      ∃ c, encode c = b :: more ∧ tokenOf (b :: more) = ofChar c (b :: more) := by
  cases hchar : char? (b :: more) with
  | none => exact .inl (by rw [tokenOf, hchar])
  | some c =>
      have hencode := encode_eq_of_char? hchar
      have hlarge : 0x80 ≤ c.toNat := by
        apply Nat.le_of_not_lt
        intro hsmall
        rw [encode_of_ascii hsmall] at hencode
        cases hencode
        rw [UInt8.lt_iff_toNat_lt, toNat_byte (by omega)] at h
        exact h hsmall
      rw [← hencode]
      exact .inr ⟨c, rfl, tokenOf_encode hlarge⟩

theorem exists_char_of_next? {bytes rest : List UInt8} {t : Token}
    (h : decoder.next? bytes = some (t, rest)) :
    ∃ part, bytes = part ++ rest ∧
      (t = .invalid part ∨ ∃ c, encode c = part ∧ t = ofChar c part) := by
  cases bytes with
  | nil => cases h
  | cons b bs =>
      by_cases hb : b < 0x80
      · have hsmall : b.toNat < 0x80 := UInt8.lt_iff_toNat_lt.mp hb
        have hchar : (Char.ofNat b.toNat).toNat = b.toNat :=
          toNat_ofNat_of_valid (.inl (by omega))
        have hencode : encode (Char.ofNat b.toNat) = [b] := by
          rw [encode_of_ascii (by omega), hchar, byte_toNat]
        have hnext := next?_char (Char.ofNat b.toNat) bs
        rw [hencode, List.singleton_append, h] at hnext
        cases hnext
        exact ⟨[b], rfl, .inr ⟨_, hencode, rfl⟩⟩
      · have hunit : [b].length = decoder.unit := rfl
        have hnext := Decoder.next?_of_unit hunit bs
        rw [List.singleton_append, h] at hnext
        cases hcount : announced? b with
        | none =>
            have hlead : decoder.lead [b] = .token (.invalid [b]) := by
              simp only [decoder, lead, ofAscii?_of_large hb, if_neg hb, hcount]
            rw [hlead] at hnext
            cases hnext
            exact ⟨[b], rfl, .inl rfl⟩
        | some count =>
            have hlead : decoder.lead [b] = .more count fun more => tokenOf (b :: more) :=
              lead_of_announced? hcount
            rw [hlead] at hnext
            cases hnext
            exact ⟨b :: bs.take count, by simp, tokenOf_cases hb _⟩

/-!
## Well-formed bytes
-/

/-- The bytes are the encoding of a text: of each of its characters the one sequence that
encodes it. A character is a code point up to the last one that is no surrogate. -/
def WellFormed (bytes : List UInt8) : Prop :=
  ∃ text : List Char, bytes = text.flatMap String.utf8EncodeChar

theorem tokens_encoded (text : List Char) :
    decoder.tokens (text.flatMap String.utf8EncodeChar) =
      text.map fun c => ofChar c (String.utf8EncodeChar c) := by
  apply Decoder.tokens_flatMap
  intro c _ rest
  rw [← encode_eq_utf8EncodeChar]
  exact next?_char c rest

theorem wellFormed_of_forall_not_invalid (bytes : List UInt8)
    (h : ∀ part, .invalid part ∉ decoder.tokens bytes) : WellFormed bytes := by
  induction bytes using (measure List.length).wf.induction with
  | _ bytes ih =>
      by_cases hnil : bytes = []
      · exact ⟨[], hnil⟩
      · rcases Decoder.exists_next?_of_ne_nil decoder hnil with ⟨t, rest, hnext⟩
        rw [Decoder.tokens_of_next? hnext] at h
        have hrest : ∀ part, .invalid part ∉ decoder.tokens rest :=
          fun part hmem => h part (List.mem_cons_of_mem t hmem)
        rcases ih rest (Decoder.length_lt_of_next? hnext) hrest with ⟨text, rfl⟩
        rcases exists_char_of_next? hnext with ⟨part, rfl, rfl | ⟨c, rfl, -⟩⟩
        · exact absurd List.mem_cons_self (h part)
        · refine ⟨c :: text, ?_⟩
          rw [List.flatMap_cons, encode_eq_utf8EncodeChar]

theorem bytes_of_next?_bom {bytes rest : List UInt8}
    (h : decoder.next? bytes = some (.bom, rest)) : bytes = [0xEF, 0xBB, 0xBF] ++ rest := by
  rcases exists_char_of_next? h with ⟨part, rfl, hbom | ⟨c, rfl, hbom⟩⟩
  · cases hbom
  · rw [eq_of_ofChar_eq_bom hbom.symm]
    rfl

/-- A file has no invalid token just when it is well-formed, and then one token for each
character. In any file a valid token holds the bytes of one character, which is none of those
with a token of their own, and a byte-order mark stands for its three bytes at this place. -/
theorem tokens_accept_wellFormed (bytes : List UInt8) :
    ((∀ part, .invalid part ∉ decoder.tokens bytes) ↔ WellFormed bytes) ∧
      (∀ text : List Char, bytes = text.flatMap String.utf8EncodeChar →
        decoder.tokens bytes = text.map fun c => ofChar c (String.utf8EncodeChar c)) ∧
      (∀ part, .valid part ∈ decoder.tokens bytes →
        ∃ c, (∀ d, String.utf8EncodeChar d = part ↔ d = c) ∧
          c ∉ ['\r', '\n', ' ', '\t', '\ufeff']) ∧
      ∀ before after, decoder.tokens bytes = before ++ .bom :: after →
        ∃ front rest, bytes = front ++ ([0xEF, 0xBB, 0xBF] ++ rest) ∧
          decoder.tokens front = before ∧ decoder.tokens rest = after := by
  refine ⟨⟨?_, ?_⟩, ?_, ?_, ?_⟩
  · exact wellFormed_of_forall_not_invalid bytes
  · rintro ⟨text, rfl⟩ part hmem
    rw [tokens_encoded] at hmem
    rcases List.mem_map.mp hmem with ⟨c, -, hc⟩
    exact ofChar_ne_invalid c _ part hc
  · rintro text rfl
    exact tokens_encoded text
  · intro part hmem
    have hvalid : ∀ t ∈ decoder.tokens bytes, t = .valid part →
        ∃ c, encode c = part ∧ c ∉ ['\r', '\n', ' ', '\t', '\ufeff'] := by
      apply Decoder.forall_mem_tokens
      rintro file t rest hnext rfl
      rcases exists_char_of_next? hnext with ⟨own, -, hinvalid | ⟨c, hc, hchar⟩⟩
      · cases hinvalid
      · rcases of_ofChar_eq_valid hchar.symm with ⟨rfl, hplain⟩
        exact ⟨c, hc, hplain⟩
    rcases hvalid _ hmem rfl with ⟨c, hc, hplain⟩
    refine ⟨c, ?_, hplain⟩
    intro d
    rw [← encode_eq_utf8EncodeChar, ← char?_eq_some_iff, char?_eq_some_iff.mpr hc,
      Option.some.injEq, eq_comm]
  · intro before after h
    rcases Decoder.exists_split_of_tokens h with ⟨front, part, rest, rfl, hnext, hfront, hrest⟩
    rw [bytes_of_next?_bom hnext]
    exact ⟨front, rest, rfl, hfront, hrest⟩

/-- A text with a mark inside, and behind it the bytes of a surrogate. -/
theorem tokens_accept_wellFormed_of_inner_mark :
    ([0x61, 0xEF, 0xBB, 0xBF, 0xC3, 0xA9] =
        ['a', '\ufeff', 'é'].flatMap String.utf8EncodeChar ∧
      decoder.tokens [0x61, 0xEF, 0xBB, 0xBF, 0xC3, 0xA9] =
        [.valid [0x61]] ++ .bom :: [.valid [0xC3, 0xA9]] ∧
      (∃ front rest, [0x61, 0xEF, 0xBB, 0xBF, 0xC3, 0xA9] =
          front ++ ([0xEF, 0xBB, 0xBF] ++ rest) ∧
        decoder.tokens front = [.valid [0x61]] ∧ decoder.tokens rest = [.valid [0xC3, 0xA9]]) ∧
      ∃ c, (∀ d, String.utf8EncodeChar d = [0xC3, 0xA9] ↔ d = c) ∧
        c ∉ ['\r', '\n', ' ', '\t', '\ufeff']) ∧
      .invalid [0xED, 0xA0, 0x80] ∈ decoder.tokens [0xED, 0xA0, 0x80] ∧
      ¬ WellFormed [0xED, 0xA0, 0x80] := by
  have htext : [0x61, 0xEF, 0xBB, 0xBF, 0xC3, 0xA9] =
      ['a', '\ufeff', 'é'].flatMap String.utf8EncodeChar := by
    decide
  have hnext : decoder.next? [0xED, 0xA0, 0x80] = some (.invalid [0xED, 0xA0, 0x80], []) := by
    decide
  have hinvalid : .invalid [0xED, 0xA0, 0x80] ∈ decoder.tokens [0xED, 0xA0, 0x80] := by
    rw [Decoder.tokens_of_next? hnext]
    exact List.mem_cons_self
  rcases tokens_accept_wellFormed [0x61, 0xEF, 0xBB, 0xBF, 0xC3, 0xA9] with
    ⟨-, htokens, hvalid, hbom⟩
  have hsplit : decoder.tokens [0x61, 0xEF, 0xBB, 0xBF, 0xC3, 0xA9] =
      [.valid [0x61]] ++ .bom :: [.valid [0xC3, 0xA9]] := by
    rw [htokens _ htext]
    decide
  refine ⟨⟨htext, hsplit, hbom _ _ hsplit, hvalid [0xC3, 0xA9] ?_⟩, hinvalid, ?_⟩
  · rw [hsplit]
    simp
  · intro hwell
    exact (tokens_accept_wellFormed _).left.mpr hwell _ hinvalid

end Utf8
end FileStyle
