import FileStyle.Encoding

/-!
# Reading back a UTF-8 sequence

The bytes of a character are read as that character, and a sequence that is read as a
character is the bytes of it. Both directions rest on one table of lead bytes: how many
bytes follow, which bits the lead byte holds, and what the first of them may be.
-/

namespace FileStyle

namespace Utf8

/-! ## Bytes and numbers -/

theorem toNat_byte {n : Nat} (h : n < 256) : (byte n).toNat = n := by
  rw [byte, UInt8.toNat_ofNat']
  exact Nat.mod_eq_of_lt h

theorem byte_toNat (b : UInt8) : byte b.toNat = b := UInt8.ofNat_toNat

theorem byte_eq_of_toNat {n : Nat} {b : UInt8} (h : b.toNat = n) : byte n = b := by
  rw [← h, byte_toNat]

theorem toNat_char_cases (c : Char) :
    c.toNat < 0xD800 ∨ 0xDFFF < c.toNat ∧ c.toNat < 0x110000 :=
  c.valid

theorem toNat_ofNat_of_valid {n : Nat} (h : n.isValidChar) : (Char.ofNat n).toNat = n := by
  rw [Char.ofNat, dif_pos h]
  rfl

/-! ## Lead bytes -/

inductive Leads : UInt8 → Shape → Prop where
  | two {p : Nat} (least : 2 ≤ p) (bound : p < 32) :
      Leads (byte (0xC0 + p)) ⟨1, p, 0x80, 0xBF⟩
  | three {p : Nat} (bound : p < 16) :
      Leads (byte (0xE0 + p))
        ⟨2, p, if p = 0x0 then 0xA0 else 0x80, if p = 0xD then 0x9F else 0xBF⟩
  | four {p : Nat} (bound : p < 5) :
      Leads (byte (0xF0 + p))
        ⟨3, p, if p = 0x0 then 0x90 else 0x80, if p = 0x4 then 0x8F else 0xBF⟩

theorem shape?_of_leads {b : UInt8} {s : Shape} (h : Leads b s) : shape? b = some s := by
  cases h with
  | @two p least bound =>
      have htable : ∀ p < 32, 2 ≤ p →
          shape? (byte (0xC0 + p)) = some ⟨1, p, 0x80, 0xBF⟩ := by decide
      exact htable p bound least
  | @three p bound =>
      revert p
      decide
  | @four p bound =>
      revert p
      decide

theorem leads_of_shape? {b : UInt8} {s : Shape} (h : shape? b = some s) : Leads b s := by
  have hlead : ∀ base, base ≤ b.toNat → byte (base + (b.toNat - base)) = b := by
    intro base hbase
    exact byte_eq_of_toNat (by omega)
  have hne : ∀ {c : UInt8}, b ≠ c → b.toNat ≠ c.toNat := by
    intro c hbc heq
    exact hbc (UInt8.toNat_inj.mp heq)
  unfold shape? at h
  simp only [UInt8.le_iff_toNat_le, UInt8.reduceToNat] at h
  split at h
  · cases h
    have hleads := Leads.two (p := b.toNat - 0xC0) (by omega) (by omega)
    rwa [hlead 0xC0 (by omega)] at hleads
  split at h
  · next hb =>
      cases h
      rw [hb]
      exact Leads.three (p := 0) (by omega)
  split at h
  · next hb =>
      cases h
      rw [hb]
      exact Leads.three (p := 0xD) (by omega)
  split at h
  · next hb0 hbD hrange =>
      cases h
      have h0 := hne hb0
      have hD := hne hbD
      simp only [UInt8.reduceToNat] at h0 hD
      have hleads := Leads.three (p := b.toNat - 0xE0) (by omega)
      rwa [hlead 0xE0 (by omega), if_neg (by omega), if_neg (by omega)] at hleads
  split at h
  · next hb =>
      cases h
      rw [hb]
      exact Leads.four (p := 0) (by omega)
  split at h
  · cases h
    have hleads := Leads.four (p := b.toNat - 0xF0) (by omega)
    rwa [hlead 0xF0 (by omega), if_neg (by omega), if_neg (by omega)] at hleads
  split at h
  · next hb =>
      cases h
      rw [hb]
      exact Leads.four (p := 4) (by omega)
  · cases h

/-! ## Continuation bytes -/

theorem continuation_byte {k : Nat} (hk : k < 64) {low high : UInt8}
    (hlow : low.toNat ≤ 0x80 + k) (hhigh : 0x80 + k ≤ high.toNat) (value seen count : Nat)
    (rest : List UInt8) :
    continuation value seen low high (count + 1) (byte (0x80 + k) :: rest) =
      continuation (value * 64 + k) (seen + 1) 0x80 0xBF count rest := by
  have hrange : low ≤ byte (0x80 + k) ∧ byte (0x80 + k) ≤ high := by
    rw [UInt8.le_iff_toNat_le, UInt8.le_iff_toNat_le, toNat_byte (by omega)]
    exact ⟨hlow, hhigh⟩
  have hbits : (byte (0x80 + k)).toNat - 0x80 = k := by
    rw [toNat_byte (by omega)]
    omega
  rw [continuation, if_pos hrange, hbits]

theorem exists_byte_of_continuation {low high : UInt8} (hlow : 0x80 ≤ low.toNat)
    (hhigh : high.toNat ≤ 0xBF) {value seen count n : Nat} {bytes rest : List UInt8}
    (h : continuation value seen low high (count + 1) bytes = .ok (n, rest)) :
    ∃ k more, bytes = byte (0x80 + k) :: more ∧ k < 64 ∧
      low.toNat ≤ 0x80 + k ∧ 0x80 + k ≤ high.toNat ∧
      continuation (value * 64 + k) (seen + 1) 0x80 0xBF count more = .ok (n, rest) := by
  cases bytes with
  | nil => simp [continuation] at h
  | cons b more =>
      rw [continuation] at h
      split at h
      · next hrange =>
          rw [UInt8.le_iff_toNat_le, UInt8.le_iff_toNat_le] at hrange
          have hb : byte (0x80 + (b.toNat - 0x80)) = b := byte_eq_of_toNat (by omega)
          refine ⟨b.toNat - 0x80, more, ?_, ?_, ?_, ?_, h⟩
          · rw [hb]
          · omega
          · omega
          · omega
      · cases h

theorem codePoint_of_leads {b : UInt8} {s : Shape} (h : Leads b s) (rest : List UInt8) :
    codePoint b rest = continuation s.payload 1 s.low s.high s.count rest := by
  have hb : ¬ b < 0x80 := by
    simp only [UInt8.lt_iff_toNat_lt, UInt8.reduceToNat]
    cases h with
    | two least bound => rw [toNat_byte (by omega)]; omega
    | three bound => rw [toNat_byte (by omega)]; omega
    | four bound => rw [toNat_byte (by omega)]; omega
  rw [codePoint, if_neg hb, shape?_of_leads h]

/-! ## The sequences of each length -/

theorem codePoint_one {n : Nat} (h : n < 0x80) (rest : List UInt8) :
    codePoint (byte n) rest = .ok (n, rest) := by
  have hb : byte n < 0x80 := by
    rw [UInt8.lt_iff_toNat_lt, toNat_byte (by omega)]
    exact h
  rw [codePoint, if_pos hb, toNat_byte (by omega)]

theorem codePoint_two {p k : Nat} (least : 2 ≤ p) (bound : p < 32) (hk : k < 64) :
    codePoint (byte (0xC0 + p)) [byte (0x80 + k)] = .ok (p * 64 + k, []) := by
  rw [codePoint_of_leads (.two least bound), continuation_byte hk (by simp) (by simp; omega),
    continuation]

theorem codePoint_three {p k l : Nat} (bound : p < 16) (hk : k < 64) (hl : l < 64)
    (hlow : p = 0x0 → 32 ≤ k) (hhigh : p = 0xD → k < 32) :
    codePoint (byte (0xE0 + p)) [byte (0x80 + k), byte (0x80 + l)] =
      .ok ((p * 64 + k) * 64 + l, []) := by
  have hfrom : (if p = 0x0 then 0xA0 else 0x80 : UInt8).toNat ≤ 0x80 + k := by
    split
    · next hp => have := hlow hp; simp; omega
    · simp
  have hto : 0x80 + k ≤ (if p = 0xD then 0x9F else 0xBF : UInt8).toNat := by
    split
    · next hp => have := hhigh hp; simp; omega
    · simp; omega
  rw [codePoint_of_leads (.three bound), continuation_byte hk hfrom hto,
    continuation_byte hl (by simp) (by simp; omega), continuation]

theorem codePoint_four {p k l m : Nat} (bound : p < 5) (hk : k < 64) (hl : l < 64)
    (hm : m < 64) (hlow : p = 0x0 → 16 ≤ k) (hhigh : p = 0x4 → k < 16) :
    codePoint (byte (0xF0 + p)) [byte (0x80 + k), byte (0x80 + l), byte (0x80 + m)] =
      .ok (((p * 64 + k) * 64 + l) * 64 + m, []) := by
  have hfrom : (if p = 0x0 then 0x90 else 0x80 : UInt8).toNat ≤ 0x80 + k := by
    split
    · next hp => have := hlow hp; simp; omega
    · simp
  have hto : 0x80 + k ≤ (if p = 0x4 then 0x8F else 0xBF : UInt8).toNat := by
    split
    · next hp => have := hhigh hp; simp; omega
    · simp; omega
  rw [codePoint_of_leads (.four bound), continuation_byte hk hfrom hto,
    continuation_byte hl (by simp) (by simp; omega),
    continuation_byte hm (by simp) (by simp; omega), continuation]

/-! ## From a character to its bytes and back -/

theorem char?_cons_of_codePoint {b : UInt8} {rest : List UInt8} {n : Nat} {c : Char}
    (h : codePoint b rest = .ok (n, [])) (hn : n = c.toNat) :
    char? (b :: rest) = some c := by
  simp [char?, h, hn]

theorem char?_encode (c : Char) : char? (encode c) = some c := by
  have hvalid := toNat_char_cases c
  rw [encode, encodeNat]
  split
  · next hone => exact char?_cons_of_codePoint (codePoint_one hone []) rfl
  split
  · exact char?_cons_of_codePoint (codePoint_two (by omega) (by omega) (by omega))
      (by omega)
  split
  · exact char?_cons_of_codePoint
      (codePoint_three (by omega) (by omega) (by omega) (by omega) (by omega)) (by omega)
  · exact char?_cons_of_codePoint
      (codePoint_four (by omega) (by omega) (by omega) (by omega) (by omega) (by omega))
      (by omega)

theorem encodeNat_two {p k : Nat} (least : 2 ≤ p) (bound : p < 32) (hk : k < 64) :
    encodeNat (p * 64 + k) = [byte (0xC0 + p), byte (0x80 + k)] := by
  have hp : (p * 64 + k) / 64 = p := by omega
  have hk' : (p * 64 + k) % 64 = k := by omega
  rw [encodeNat, if_neg (by omega), if_pos (by omega), hp, hk']

theorem encodeNat_three {p k l : Nat} (bound : p < 16) (hk : k < 64) (hl : l < 64)
    (hlow : p = 0x0 → 32 ≤ k) :
    encodeNat ((p * 64 + k) * 64 + l) =
      [byte (0xE0 + p), byte (0x80 + k), byte (0x80 + l)] := by
  have hp : ((p * 64 + k) * 64 + l) / 4096 = p := by omega
  have hk' : ((p * 64 + k) * 64 + l) / 64 % 64 = k := by omega
  have hl' : ((p * 64 + k) * 64 + l) % 64 = l := by omega
  rw [encodeNat, if_neg (by omega), if_neg (by omega), if_pos (by omega), hp, hk', hl']

theorem encodeNat_four {p k l m : Nat} (hk : k < 64) (hl : l < 64) (hm : m < 64)
    (hlow : p = 0x0 → 16 ≤ k) :
    encodeNat (((p * 64 + k) * 64 + l) * 64 + m) =
      [byte (0xF0 + p), byte (0x80 + k), byte (0x80 + l), byte (0x80 + m)] := by
  have hp : (((p * 64 + k) * 64 + l) * 64 + m) / 262144 = p := by omega
  have hk' : (((p * 64 + k) * 64 + l) * 64 + m) / 4096 % 64 = k := by omega
  have hl' : (((p * 64 + k) * 64 + l) * 64 + m) / 64 % 64 = l := by omega
  have hm' : (((p * 64 + k) * 64 + l) * 64 + m) % 64 = m := by omega
  rw [encodeNat, if_neg (by omega), if_neg (by omega), if_neg (by omega), hp, hk', hl', hm']

theorem eq_of_continuation_zero {value seen n : Nat} {low high : UInt8}
    {bytes : List UInt8} (h : continuation value seen low high 0 bytes = .ok (n, [])) :
    value = n ∧ bytes = [] := by
  simpa [continuation] using h

theorem encodeNat_of_leads {b : UInt8} {s : Shape} (h : Leads b s) {rest : List UInt8}
    {n : Nat} (hrest : continuation s.payload 1 s.low s.high s.count rest = .ok (n, [])) :
    encodeNat n = b :: rest ∧ n.isValidChar := by
  cases h with
  | @two p least bound =>
      dsimp only at hrest
      obtain ⟨k, more, rfl, hk, -, -, hmore⟩ :=
        exists_byte_of_continuation (by simp) (by simp) hrest
      rcases eq_of_continuation_zero hmore with ⟨rfl, rfl⟩
      exact ⟨encodeNat_two least bound hk, Or.inl (by omega)⟩
  | @three p bound =>
      dsimp only at hrest
      obtain ⟨k, more, rfl, hk, hfrom, hto, hmore⟩ :=
        exists_byte_of_continuation (by split <;> simp) (by split <;> simp) hrest
      obtain ⟨l, more, rfl, hl, -, -, hmore⟩ :=
        exists_byte_of_continuation (by simp) (by simp) hmore
      rcases eq_of_continuation_zero hmore with ⟨rfl, rfl⟩
      have hlow : p = 0x0 → 32 ≤ k := by
        intro hp
        simp only [hp, if_pos, UInt8.reduceToNat] at hfrom
        omega
      have hhigh : p = 0xD → k < 32 := by
        intro hp
        simp only [hp, if_pos, UInt8.reduceToNat] at hto
        omega
      refine ⟨encodeNat_three bound hk hl hlow, ?_⟩
      rw [Nat.isValidChar]
      omega
  | @four p bound =>
      dsimp only at hrest
      obtain ⟨k, more, rfl, hk, hfrom, hto, hmore⟩ :=
        exists_byte_of_continuation (by split <;> simp) (by split <;> simp) hrest
      obtain ⟨l, more, rfl, hl, -, -, hmore⟩ :=
        exists_byte_of_continuation (by simp) (by simp) hmore
      obtain ⟨m, more, rfl, hm, -, -, hmore⟩ :=
        exists_byte_of_continuation (by simp) (by simp) hmore
      rcases eq_of_continuation_zero hmore with ⟨rfl, rfl⟩
      have hlow : p = 0x0 → 16 ≤ k := by
        intro hp
        simp only [hp, if_pos, UInt8.reduceToNat] at hfrom
        omega
      have hhigh : p = 0x4 → k < 16 := by
        intro hp
        simp only [hp, if_pos, UInt8.reduceToNat] at hto
        omega
      refine ⟨encodeNat_four hk hl hm hlow, ?_⟩
      rw [Nat.isValidChar]
      omega

theorem encodeNat_of_codePoint {b : UInt8} {rest : List UInt8} {n : Nat}
    (h : codePoint b rest = .ok (n, [])) : encodeNat n = b :: rest ∧ n.isValidChar := by
  rw [codePoint] at h
  split at h
  · next hb =>
      simp only [Except.ok.injEq, Prod.mk.injEq] at h
      rcases h with ⟨rfl, rfl⟩
      simp only [UInt8.lt_iff_toNat_lt, UInt8.reduceToNat] at hb
      rw [encodeNat, if_pos hb, byte_toNat]
      exact ⟨rfl, Or.inl (by omega)⟩
  · split at h
    · cases h
    · next s hshape => exact encodeNat_of_leads (leads_of_shape? hshape) h

theorem encode_eq_of_char? {bytes : List UInt8} {c : Char} (h : char? bytes = some c) :
    encode c = bytes := by
  cases bytes with
  | nil => simp [char?] at h
  | cons b rest =>
      rw [char?] at h
      split at h
      · next n hpoint =>
          rcases encodeNat_of_codePoint hpoint with ⟨hbytes, hvalid⟩
          cases h
          rw [encode, toNat_ofNat_of_valid hvalid, hbytes]
      · cases h

theorem char?_eq_some_iff {bytes : List UInt8} {c : Char} :
    char? bytes = some c ↔ encode c = bytes := by
  constructor
  · exact encode_eq_of_char?
  · rintro rfl
    exact char?_encode c

/-!
## Saved text

A text that is saved as UTF-8 is read back as it was. Each character is one sequence of bytes,
and the bytes behind a sequence have no part in it.
-/

theorem continuation_append {value seen count n : Nat} {low high : UInt8}
    {bytes left : List UInt8} (h : continuation value seen low high count bytes = .ok (n, left))
    (rest : List UInt8) :
    continuation value seen low high count (bytes ++ rest) = .ok (n, left ++ rest) := by
  induction count generalizing value seen low high bytes with
  | zero =>
      cases h
      rfl
  | succ count ih =>
      cases bytes with
      | nil => cases h
      | cons b bytes =>
          rw [continuation] at h
          split at h
          · next hrange =>
              rw [List.cons_append, continuation, if_pos hrange]
              exact ih h
          · cases h

theorem codePoint_append {b : UInt8} {bytes left : List UInt8} {n : Nat}
    (h : codePoint b bytes = .ok (n, left)) (rest : List UInt8) :
    codePoint b (bytes ++ rest) = .ok (n, left ++ rest) := by
  unfold codePoint at h ⊢
  split
  · next hascii =>
      rw [if_pos hascii] at h
      cases h
      rfl
  · next hlarge =>
      rw [if_neg hlarge] at h
      cases hshape : shape? b with
      | none =>
          rw [hshape] at h
          cases h
      | some s =>
          rw [hshape] at h
          exact continuation_append h rest

theorem exists_codePoint_of_encode (c : Char) :
    ∃ b bytes n, encode c = b :: bytes ∧ codePoint b bytes = .ok (n, []) ∧ Char.ofNat n = c := by
  have hchar := char?_encode c
  cases hencode : encode c with
  | nil =>
      rw [hencode] at hchar
      cases hchar
  | cons b bytes =>
      rw [hencode, char?] at hchar
      split at hchar
      · next n hcode =>
          cases hchar
          exact ⟨b, bytes, n, rfl, hcode, rfl⟩
      · cases hchar

theorem exists_textFrom_encode_append (c : Char) (position : Nat) (rest : List UInt8) :
    ∃ next, textFrom position (encode c ++ rest) = (textFrom next rest).map (c :: ·) := by
  rcases exists_codePoint_of_encode c with ⟨b, bytes, n, hencode, hcode, rfl⟩
  have hcode' : codePoint b (bytes ++ rest) = .ok (n, rest) := codePoint_append hcode rest
  rw [hencode, List.cons_append, textFrom]
  split
  · next hfault =>
      rw [hcode'] at hfault
      cases hfault
  · next hread =>
      rw [hcode'] at hread
      cases hread
      exact ⟨_, rfl⟩

theorem text_encode (s : List Char) : text (s.flatMap encode) = .ok s := by
  have hfrom : ∀ position, textFrom position (s.flatMap encode) = .ok s := by
    induction s with
    | nil =>
        intro position
        rw [List.flatMap_nil, textFrom]
    | cons c s ih =>
        intro position
        rcases exists_textFrom_encode_append c position (s.flatMap encode) with ⟨next, hnext⟩
        rw [List.flatMap_cons, hnext, ih next]
        rfl
  exact hfrom 0

end Utf8

end FileStyle
