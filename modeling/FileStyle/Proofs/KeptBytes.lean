import FileStyle.Check
import FileStyle.Proofs.Delivery
import FileStyle.Proofs.Written

/-!
# Decoders keep their bytes

What a decoder takes from a file for a token is what the token stands for, whether the
bytes are sound or not. Main statement: the bytes that the tokens of a file stand for,
one after the other, are the file.
-/

namespace FileStyle

/-!
## What a first unit tells
-/

theorem SingleByte.lead_token {accepts : UInt8 → Bool} {unit : List UInt8} {t : Token}
    (h : (decoder accepts).lead unit = .token t) :
    (∃ b, unit = [b] ∧ Token.ofAscii? b = some t) ∨
      t = .valid unit ∨ t = .invalid unit := by
  simp only [decoder] at h
  split at h
  · next b =>
      split at h
      · next t' ht =>
          cases h
          exact Or.inl ⟨b, rfl, ht⟩
      · split at h <;> cases h <;> simp
  · cases h
    simp

theorem SingleByte.lead_ne_more {accepts : UInt8 → Bool} {unit : List UInt8} {count : Nat}
    {finish : List UInt8 → Token} : (decoder accepts).lead unit ≠ .more count finish := by
  intro h
  simp only [decoder] at h
  split at h
  · split at h <;> cases h
  · cases h

theorem Utf8.lead_token {unit : List UInt8} {t : Token} (h : lead unit = .token t) :
    (∃ b, unit = [b] ∧ Token.ofAscii? b = some t) ∨
      t = .valid unit ∨ t = .invalid unit := by
  unfold lead at h
  split at h
  · next b =>
      split at h
      · next t' ht =>
          cases h
          exact Or.inl ⟨b, rfl, ht⟩
      split at h
      · cases h
        simp
      split at h
      · cases h
        simp
      · cases h
  · cases h
    simp

theorem Utf8.lead_more {unit : List UInt8} {count : Nat} {finish : List UInt8 → Token}
    (h : lead unit = .more count finish) :
    ∃ b, unit = [b] ∧ announced? b = some count ∧
      finish = fun rest => tokenOf (b :: rest) := by
  unfold lead at h
  split at h
  · next b =>
      split at h
      · cases h
      split at h
      · cases h
      split at h
      · cases h
      · next count' hcount =>
          cases h
          exact ⟨b, rfl, hcount, rfl⟩
  · cases h

theorem Utf8.announced?_le {b : UInt8} {count : Nat} (h : announced? b = some count) :
    count ≤ 3 := by
  unfold announced? at h
  split at h
  · cases h
    omega
  split at h
  · cases h
    omega
  split at h
  · cases h
    omega
  · cases h

theorem Utf16.split?_eq_some {order : ByteOrder} {unit : List UInt8} {high low : UInt8}
    (h : order.split? unit = some (high, low)) : unit = order.pair high low := by
  unfold ByteOrder.split? at h
  split at h
  · next a b =>
      cases order with
      | bigEndian =>
          cases h
          rfl
      | littleEndian =>
          cases h
          rfl
  · cases h

theorem Utf16.lead_token {order : ByteOrder} {unit : List UInt8} {t : Token}
    (h : lead order unit = .token t) :
    (∃ b, unit = order.pair 0 b ∧ Token.ofAscii? b = some t) ∨
      (unit = order.pair 0xFE 0xFF ∧ t = .bom) ∨
      t = .valid unit ∨ t = .invalid unit := by
  unfold lead at h
  split at h
  · cases h
    simp
  · next high low hsplit =>
      have hunit := split?_eq_some hsplit
      split at h
      · next hbom =>
          cases h
          rw [hbom.1, hbom.2] at hunit
          exact Or.inr (Or.inl ⟨hunit, rfl⟩)
      split at h
      · cases h
      split at h
      · next hzero =>
          cases hlow : Token.ofAscii? low with
          | none =>
              rw [hlow] at h
              cases h
              simp
          | some t' =>
              rw [hlow] at h
              cases h
              rw [hzero] at hunit
              exact Or.inl ⟨low, hunit, hlow⟩
      · cases h
        simp

theorem Utf16.lead_more {order : ByteOrder} {unit : List UInt8} {count : Nat}
    {finish : List UInt8 → Token} (h : lead order unit = .more count finish) :
    count = 2 ∧ finish = pairToken order unit := by
  unfold lead at h
  split at h
  · cases h
  split at h
  · cases h
  split at h
  · cases h
    exact ⟨rfl, rfl⟩
  split at h
  · cases h
  · cases h

namespace Decoder

/-!
## Decoders that keep their bytes
-/

/-- The bytes taken for a token, at most four, are those that the token is written
as. -/
structure Keeps (d : Decoder) (written? : Token → Option (List UInt8)) : Prop where
  unit_le : d.unit ≤ 4
  token : ∀ {unit t}, d.lead unit = .token t → written? t = some unit
  count_le : ∀ {unit count finish}, d.lead unit = .more count finish →
    d.unit + count ≤ 4
  more : ∀ {unit count finish} rest, d.lead unit = .more count finish →
    written? (finish rest) = some (unit ++ rest)

theorem written?_ascii {charset : Option Charset}
    (h : Charset.extendsAscii charset = true) {b : UInt8} {t : Token}
    (ht : Token.ofAscii? b = some t) : t.written? charset = some [b] := by
  rcases Token.written?_of_ofAscii? charset ht with ⟨hwritten, hb⟩
  rw [hwritten, Charset.encode?_ascii h hb]

theorem keeps_singleByte {charset : Option Charset}
    (h : Charset.extendsAscii charset = true) (accepts : UInt8 → Bool) :
    (SingleByte.decoder accepts).Keeps (Token.written? charset) where
  unit_le := by simp [SingleByte.decoder]
  token := by
    intro unit t hlead
    rcases SingleByte.lead_token hlead with ⟨b, rfl, ht⟩ | rfl | rfl
    · exact written?_ascii h ht
    · rfl
    · rfl
  count_le := fun hlead => absurd hlead SingleByte.lead_ne_more
  more := fun _ hlead => absurd hlead SingleByte.lead_ne_more

theorem written?_tokenOf {charset : Option Charset}
    (h : ∀ c, Charset.encode? charset c = some (String.utf8EncodeChar c))
    (bytes : List UInt8) : (Utf8.tokenOf bytes).written? charset = some bytes := by
  unfold Utf8.tokenOf
  split
  · rfl
  · next c hc =>
      split
      · next hbom =>
          rw [← Utf8.encode_eq_of_char? hc, Utf8.encode_eq_utf8EncodeChar, hbom]
          exact h '\ufeff'
      · rfl

theorem keeps_utf8 {charset : Option Charset}
    (hascii : Charset.extendsAscii charset = true)
    (h : ∀ c, Charset.encode? charset c = some (String.utf8EncodeChar c)) :
    Utf8.decoder.Keeps (Token.written? charset) where
  unit_le := by simp [Utf8.decoder]
  token := by
    intro unit t hlead
    rcases Utf8.lead_token hlead with ⟨b, rfl, ht⟩ | rfl | rfl
    · exact written?_ascii hascii ht
    · rfl
    · rfl
  count_le := by
    intro unit count finish hlead
    rcases Utf8.lead_more hlead with ⟨b, -, hcount, -⟩
    have hle := Utf8.announced?_le hcount
    simp only [Utf8.decoder]
    omega
  more := by
    intro unit count finish rest hlead
    rcases Utf8.lead_more hlead with ⟨b, rfl, -, rfl⟩
    exact written?_tokenOf h (b :: rest)

theorem written?_pairToken (charset : Option Charset) (order : Utf16.ByteOrder)
    (unit trail : List UInt8) :
    (Utf16.pairToken order unit trail).written? charset = some (unit ++ trail) := by
  unfold Utf16.pairToken
  split
  · split
    · rfl
    · rfl
  · rfl

theorem keeps_utf16 {charset : Option Charset} {order : Utf16.ByteOrder}
    (h : ∀ c, Charset.encode? charset c = some (Utf16.encode order c)) :
    (Utf16.decoder order).Keeps (Token.written? charset) where
  unit_le := by simp [Utf16.decoder]
  token := by
    intro unit t hlead
    rcases Utf16.lead_token hlead with ⟨b, rfl, ht⟩ | ⟨rfl, rfl⟩ | rfl | rfl
    · rcases Token.written?_of_ofAscii? charset ht with ⟨hwritten, hb⟩
      rw [hwritten, h, Utf16.encode_ascii order hb]
    · exact h '\ufeff'
    · rfl
    · rfl
  count_le := by
    intro unit count finish hlead
    rcases Utf16.lead_more hlead with ⟨rfl, -⟩
    simp [Utf16.decoder]
  more := by
    intro unit count finish rest hlead
    rcases Utf16.lead_more hlead with ⟨-, rfl⟩
    exact written?_pairToken charset order unit rest

theorem keeps_ofCharset (charset : Option Charset) :
    (ofCharset charset).Keeps (Token.written? charset) := by
  cases charset with
  | none => exact keeps_singleByte rfl _
  | some set =>
      cases set with
      | latin1 => exact keeps_singleByte rfl _
      | utf8 => exact keeps_utf8 rfl fun _ => rfl
      | utf8Bom => exact keeps_utf8 rfl fun _ => rfl
      | utf16be => exact keeps_utf16 fun _ => rfl
      | utf16le => exact keeps_utf16 fun _ => rfl

/-!
## The tokens of a file
-/

theorem Keeps.next? {d : Decoder} {written? : Token → Option (List UInt8)}
    (hd : d.Keeps written?) {bytes rest : List UInt8} {t : Token}
    (h : d.next? bytes = some (t, rest)) :
    ∃ part, written? t = some part ∧ bytes = part ++ rest ∧
      1 ≤ part.length ∧ part.length ≤ 4 := by
  rcases next?_cases h with ⟨hne, hcases⟩
  have hlength : 0 < bytes.length := List.length_pos_iff.mpr hne
  have hpos := d.unit_pos
  have hle := hd.unit_le
  rcases hcases with ⟨hlead, rfl⟩ | ⟨count, finish, hlead, rfl, rfl⟩
  · refine ⟨bytes.take d.unit, hd.token hlead, ?_, ?_, ?_⟩
    · rw [List.take_append_drop]
    · rw [List.length_take]
      omega
    · rw [List.length_take]
      omega
  · have hcount := hd.count_le hlead
    refine ⟨bytes.take d.unit ++ (bytes.drop d.unit).take count, hd.more _ hlead,
      ?_, ?_, ?_⟩
    · rw [List.append_assoc, List.take_append_drop, List.take_append_drop]
    · rw [List.length_append, List.length_take]
      omega
    · rw [List.length_append, List.length_take, List.length_take]
      omega

theorem Keeps.tokens {d : Decoder} {written? : Token → Option (List UInt8)}
    (hd : d.Keeps written?) (bytes : List UInt8) :
    ∃ parts, (d.tokens bytes).mapM written? = some parts ∧ parts.flatten = bytes ∧
      ∀ part ∈ parts, 1 ≤ part.length ∧ part.length ≤ 4 := by
  induction bytes using (measure List.length).wf.induction with
  | _ bytes ih =>
      cases hnext : d.next? bytes with
      | none =>
          cases bytes with
          | nil => exact ⟨[], by simp⟩
          | cons b bs =>
              simp only [Decoder.next?] at hnext
              split at hnext <;> cases hnext
      | some first =>
          rcases first with ⟨t, rest⟩
          rcases hd.next? hnext with ⟨part, hwritten, hbytes, hpart⟩
          rcases ih rest (length_lt_of_next? hnext) with ⟨parts, hparts, hflatten, hsizes⟩
          refine ⟨part :: parts, ?_, ?_, ?_⟩
          · rw [tokens_of_next? hnext]
            simp [List.mapM_cons, hwritten, hparts]
          · rw [List.flatten_cons, hflatten, ← hbytes]
          · intro other hother
            rcases List.mem_cons.mp hother with rfl | hother
            · exact hpart
            · exact hsizes other hother

/-- Decoding a file comes to an end, and its tokens stand for all its bytes in order,
one to four for each. -/
theorem tokens_keep_bytes (charset : Option Charset) (bytes : List UInt8) :
    (∃ left, (ofCharset charset).drain (Source.ofBytes bytes) =
          ((ofCharset charset).tokens bytes, .ok left) ∧
        (ofCharset charset).pull left = .ok none) ∧
      ∃ parts, ((ofCharset charset).tokens bytes).mapM (Token.written? charset) =
          some parts ∧
        parts.flatten = bytes ∧ ∀ part ∈ parts, 1 ≤ part.length ∧ part.length ≤ 4 := by
  constructor
  · have hsource : (Source.ofBytes bytes).Delivers bytes false := .ends rfl rfl
    rcases drain_of_ends (ofCharset charset) hsource with ⟨left, hdrain, hleft⟩
    exact ⟨left, hdrain, pull_of_ends hleft⟩
  · exact (keeps_ofCharset charset).tokens bytes

/-!
## Checking a source

A source may cut its bytes as it likes: the check finds what it finds in the bytes as a
whole. A source that fails gives no findings, and the tokens before the failure are
those of every file that starts with the bytes that it delivered.
-/

/-- The tokens before a failure stand for all the delivered bytes but the last three at
most. -/
theorem written_of_split {d : Decoder} {written? : Token → Option (List UInt8)}
    (hd : d.Keeps written?) {bytes rest : List UInt8} {ts : List Token}
    (htokens : d.tokens bytes = ts ++ d.tokens rest) :
    ∃ parts, ts.mapM written? = some parts ∧ parts.flatten ++ rest = bytes := by
  rcases hd.tokens bytes with ⟨parts, hparts, hflatten, -⟩
  rcases hd.tokens rest with ⟨last, hlast, hrest, -⟩
  rw [htokens, List.mapM_append, hlast] at hparts
  cases hfirst : ts.mapM written? with
  | none => simp [hfirst] at hparts
  | some first =>
      have happend : first ++ last = parts := by simpa [hfirst] using hparts
      refine ⟨first, rfl, ?_⟩
      rw [← hrest, ← List.flatten_append, happend, hflatten]

theorem Keeps.asks_le {d : Decoder} {written? : Token → Option (List UInt8)}
    (hd : d.Keeps written?) (bytes : List UInt8) : d.asks bytes ≤ 4 := by
  cases hlead : d.lead (bytes.take d.unit) with
  | token t =>
      rw [asks_of_token hlead]
      exact hd.unit_le
  | more count finish =>
      rw [asks_of_more hlead]
      exact hd.count_le hlead

end Decoder

namespace Style

open Decoder

theorem checkSource_of_ends (s : Style) {source : Source} {bytes : List UInt8}
    (h : source.Delivers bytes false) : s.checkSource source = .ok (s.check bytes) := by
  rcases drain_of_ends s.decoder h with ⟨left, hdrain, -⟩
  rw [checkSource, hdrain]
  rfl

theorem checkSource_of_fails (s : Style) {source : Source} {bytes : List UInt8}
    (h : source.Delivers bytes true) : s.checkSource source = .error .sourceLost := by
  rcases drain_of_fails s.decoder h with ⟨ts, rest, hdrain, -⟩
  rw [checkSource, hdrain]

/-- However a source cuts its bytes, its tokens and findings are those of the bytes. If
it fails after some of them, the tokens so far are the first ones of every file that
starts with these bytes and stand for all of them but three at most, and no check gives
findings. -/
theorem checkSource_independent (charset : Option Charset) (bytes : List UInt8)
    (piece : Nat → Nat → Nat) (reads : Nat) :
    (∃ left, (ofCharset charset).drain ⟨bytes, piece, reads, none⟩ =
        ((ofCharset charset).tokens bytes, .ok left)) ∧
      (∃ left, (ofCharset charset).drain (Source.ofBytes bytes) =
        ((ofCharset charset).tokens bytes, .ok left)) ∧
      (∀ s : Style, s.checkSource ⟨bytes, piece, reads, none⟩ = .ok (s.check bytes) ∧
        s.checkSource (Source.ofBytes bytes) = .ok (s.check bytes)) ∧
      ∀ k ≤ bytes.length, ∃ ts,
        (ofCharset charset).drain ⟨bytes, piece, reads, some k⟩ =
            (ts, .error .sourceLost) ∧
          (∀ more, ts <+: (ofCharset charset).tokens (bytes.take k ++ more)) ∧
          (∃ parts, ts.mapM (Token.written? charset) = some parts ∧
            parts.flatten <+: bytes.take k ∧ k ≤ parts.flatten.length + 3) ∧
          ∀ s : Style,
            s.checkSource ⟨bytes, piece, reads, some k⟩ = .error .sourceLost := by
  have hkeeps := keeps_ofCharset charset
  have hsteady : Source.Delivers ⟨bytes, piece, reads, none⟩ bytes false := .ends rfl rfl
  have hwhole : (Source.ofBytes bytes).Delivers bytes false := .ends rfl rfl
  refine ⟨?_, ?_, ?_, ?_⟩
  · rcases drain_of_ends (ofCharset charset) hsteady with ⟨left, hdrain, -⟩
    exact ⟨left, hdrain⟩
  · rcases drain_of_ends (ofCharset charset) hwhole with ⟨left, hdrain, -⟩
    exact ⟨left, hdrain⟩
  · intro s
    exact ⟨checkSource_of_ends s hsteady, checkSource_of_ends s hwhole⟩
  · intro k hk
    have hlength : (bytes.take k).length = k := List.length_take_of_le hk
    have hlost : Source.Delivers ⟨bytes, piece, reads, some k⟩ (bytes.take k) true := by
      have hsplit : bytes = bytes.take k ++ bytes.drop k :=
        (List.take_append_drop k bytes).symm
      exact .fails hsplit (by rw [hlength])
    rcases drain_of_fails (ofCharset charset) hlost with
      ⟨ts, rest, hdrain, hrest, htokens⟩
    refine ⟨ts, hdrain, ?_, ?_, ?_⟩
    · intro more
      rw [htokens more]
      exact List.prefix_append ts _
    · have hsplit := htokens []
      rw [List.append_nil, List.append_nil] at hsplit
      rcases written_of_split hkeeps hsplit with ⟨parts, hparts, hbytes⟩
      have hasks := hkeeps.asks_le rest
      have hcount := congrArg List.length hbytes
      rw [List.length_append, hlength] at hcount
      refine ⟨parts, hparts, ?_, by omega⟩
      rw [← hbytes]
      exact List.prefix_append _ rest
    · intro s
      exact checkSource_of_fails s hlost

/-- A source of single bytes that fails inside a character of two. -/
theorem checkSource_independent_inside_character :
    2 ≤ [0x61, 0xC3, 0xA9].length ∧ ∃ ts,
      Utf8.decoder.drain ⟨[0x61, 0xC3, 0xA9], fun _ _ => 1, 0, some 2⟩ =
          (ts, .error .sourceLost) ∧
        ts <+: Utf8.decoder.tokens [0x61, 0xC3, 0xA8] := by
  have hk : 2 ≤ ([0x61, 0xC3, 0xA9] : List UInt8).length := by decide
  obtain ⟨-, -, -, hfails⟩ :=
    checkSource_independent (some .utf8) [0x61, 0xC3, 0xA9] (fun _ _ => 1) 0
  rcases hfails 2 hk with ⟨ts, hdrain, hprefix, -⟩
  exact ⟨hk, ts, hdrain, hprefix [0xA8]⟩

end Style

end FileStyle
