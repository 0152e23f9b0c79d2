import FileStyle.Proofs.Utf8Sequence

/-!
# The bytes that tokens stand for

A character set gives each of its characters some bytes, and a token stands for the
bytes that it holds or for those of its character.
-/

namespace FileStyle

namespace Utf16

def unitBytes (order : ByteOrder) (n : Nat) : List UInt8 :=
  order.pair (UInt8.ofNat (n / 0x100)) (UInt8.ofNat (n % 0x100))

def encode (order : ByteOrder) (c : Char) : List UInt8 :=
  if c.toNat < 0x10000 then
    unitBytes order c.toNat
  else
    unitBytes order (0xD800 + (c.toNat - 0x10000) / 0x400) ++
      unitBytes order (0xDC00 + (c.toNat - 0x10000) % 0x400)

end Utf16

/-- The bytes of a character. Without a character set only ASCII is known, and Latin-1
has the first 256 characters. -/
def Charset.encode? : Option Charset → Char → Option (List UInt8)
  | none, c => if c.toNat < 0x80 then some [UInt8.ofNat c.toNat] else none
  | some .latin1, c => if c.toNat < 0x100 then some [UInt8.ofNat c.toNat] else none
  | some .utf8, c => some (String.utf8EncodeChar c)
  | some .utf8Bom, c => some (String.utf8EncodeChar c)
  | some .utf16be, c => some (Utf16.encode .bigEndian c)
  | some .utf16le, c => some (Utf16.encode .littleEndian c)

namespace Token

def char? : Token → Option Char
  | bom => some '\ufeff'
  | newline .cr => some '\r'
  | newline .lf => some '\n'
  | indent .space => some ' '
  | indent .tab => some '\t'
  | valid _ => none
  | invalid _ => none

def written? (charset : Option Charset) : Token → Option (List UInt8)
  | valid bytes => some bytes
  | invalid bytes => some bytes
  | t => t.char?.bind (Charset.encode? charset)

theorem written?_of_ofAscii? (charset : Option Charset) {b : UInt8} {t : Token}
    (h : ofAscii? b = some t) :
    t.written? charset = Charset.encode? charset (Char.ofNat b.toNat) ∧ b.toNat < 0x80 := by
  unfold ofAscii? at h
  split at h
  · next hb =>
      cases h
      rw [hb]
      exact ⟨rfl, by decide⟩
  split at h
  · next hb =>
      cases h
      rw [hb]
      exact ⟨rfl, by decide⟩
  split at h
  · next hb =>
      cases h
      rw [hb]
      exact ⟨rfl, by decide⟩
  split at h
  · next hb =>
      cases h
      rw [hb]
      exact ⟨rfl, by decide⟩
  · cases h

end Token

/-!
## What the character sets write
-/

theorem Utf8.encode_eq_utf8EncodeChar (c : Char) :
    Utf8.encode c = String.utf8EncodeChar c := by
  have hvalid := Utf8.toNat_char_cases c
  have hval : c.val.toNat = c.toNat := rfl
  unfold Utf8.encode Utf8.encodeNat String.utf8EncodeChar
  simp only [hval, Utf8.byte]
  by_cases hone : c.toNat < 0x80
  · rw [if_pos hone, if_pos (by omega)]
  by_cases htwo : c.toNat < 0x800
  · have hlead : c.toNat / 64 % 0x20 + 0xC0 = 0xC0 + c.toNat / 64 := by omega
    rw [if_neg hone, if_pos htwo, if_neg (by omega), if_pos (by omega), hlead,
      Nat.add_comm (c.toNat % 0x40)]
  by_cases hthree : c.toNat < 0x10000
  · have hlead : c.toNat / 4096 % 0x10 + 0xE0 = 0xE0 + c.toNat / 4096 := by omega
    rw [if_neg hone, if_neg htwo, if_pos hthree, if_neg (by omega), if_neg (by omega),
      if_pos (by omega), hlead, Nat.add_comm (c.toNat / 64 % 0x40),
      Nat.add_comm (c.toNat % 0x40)]
  · have hlead : c.toNat / 262144 % 0x08 + 0xF0 = 0xF0 + c.toNat / 262144 := by omega
    rw [if_neg hone, if_neg htwo, if_neg hthree, if_neg (by omega), if_neg (by omega),
      if_neg (by omega), hlead, Nat.add_comm (c.toNat / 4096 % 0x40),
      Nat.add_comm (c.toNat / 64 % 0x40), Nat.add_comm (c.toNat % 0x40)]

namespace Charset

def extendsAscii : Option Charset → Bool
  | some .utf16be => false
  | some .utf16le => false
  | _ => true

theorem encode?_ascii {charset : Option Charset} (h : extendsAscii charset = true)
    {b : UInt8} (hb : b.toNat < 0x80) :
    encode? charset (Char.ofNat b.toNat) = some [b] := by
  have hchar : (Char.ofNat b.toNat).toNat = b.toNat :=
    Utf8.toNat_ofNat_of_valid (Or.inl (by omega))
  have hutf8 : String.utf8EncodeChar (Char.ofNat b.toNat) = [b] := by
    rw [← Utf8.encode_eq_utf8EncodeChar, Utf8.encode, Utf8.encodeNat, hchar, if_pos hb,
      Utf8.byte_toNat]
  have hlatin1 : b.toNat < 0x100 := by omega
  cases charset with
  | none => simp [encode?, hchar, hb]
  | some set =>
      cases set with
      | latin1 => simp [encode?, hchar, hlatin1]
      | utf8 => simp [encode?, hutf8]
      | utf8Bom => simp [encode?, hutf8]
      | utf16be => simp [extendsAscii] at h
      | utf16le => simp [extendsAscii] at h

end Charset

theorem Utf16.encode_ascii (order : Utf16.ByteOrder) {b : UInt8} (hb : b.toNat < 0x80) :
    Utf16.encode order (Char.ofNat b.toNat) = order.pair 0 b := by
  have hchar : (Char.ofNat b.toNat).toNat = b.toNat :=
    Utf8.toNat_ofNat_of_valid (Or.inl (by omega))
  have hhigh : b.toNat / 0x100 = 0 := by omega
  have hlow : b.toNat % 0x100 = b.toNat := by omega
  rw [Utf16.encode, hchar, if_pos (by omega), Utf16.unitBytes, hhigh, hlow,
    UInt8.ofNat_toNat]
  rfl

end FileStyle
