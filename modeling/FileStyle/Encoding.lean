import FileStyle.Text

/-!
# Encodings

A file is read as tokens, in one of the character sets that a style can ask for. Without
a character set every byte counts as a character.
-/

namespace FileStyle

/-!
## Tokens

A file is checked token by token. A token is one unit of text as a character set
reads it: a line terminator, a character of white space, a byte-order mark, any
other character, or bytes that are no character.
-/

inductive Newline where
  | cr
  | lf
  deriving DecidableEq, Repr

inductive Indent where
  | space
  | tab
  deriving DecidableEq, Repr

inductive Token where
  | bom
  | newline (kind : Newline)
  | indent (kind : Indent)
  | valid (bytes : List UInt8)
  | invalid (bytes : List UInt8)
  deriving DecidableEq, Repr

namespace Token

def ofAscii? (b : UInt8) : Option Token :=
  if b = 0x0D then some (newline .cr)
  else if b = 0x0A then some (newline .lf)
  else if b = 0x20 then some (indent .space)
  else if b = 0x09 then some (indent .tab)
  else none

def isNewline : Token → Bool
  | newline _ => true
  | _ => false

def isIndent : Token → Bool
  | indent _ => true
  | _ => false

end Token

/-!
## Character sets

The character sets that a style can ask for. Each has one label, by which style
files name it.
-/

inductive Charset where
  | latin1
  | utf8
  | utf8Bom
  | utf16be
  | utf16le
  deriving DecidableEq, Repr

namespace Charset

def label : Charset → String
  | latin1 => "latin1"
  | utf8 => "utf-8"
  | utf8Bom => "utf-8-bom"
  | utf16be => "utf-16be"
  | utf16le => "utf-16le"

def all : List Charset := [latin1, utf8, utf8Bom, utf16be, utf16le]

theorem mem_all (c : Charset) : c ∈ all := by
  cases c <;> simp [all]

structure Unsupported where
  label : String
  deriving DecidableEq, Repr

def Unsupported.message (u : Unsupported) : String :=
  "Unsupported charset: " ++ Text.quoted u.label

def ofLabel (s : String) : Except Unsupported Charset :=
  match all.find? (·.label = s) with
  | some c => .ok c
  | none => .error ⟨s⟩

end Charset

/-!
## Decoders

A decoder turns bytes into tokens, one at a time. It first takes a unit of fixed
size; the unit either is a token or says how many further bytes belong to it. Bytes
that were taken stay part of the token, whatever they turn out to be, so no byte is
ever looked at twice.
-/

/-- What the first unit of a token tells. -/
inductive Lead where
  | token (t : Token)
  | more (count : Nat) (finish : List UInt8 → Token)

structure Decoder where
  /-- The number of bytes of a unit; the last unit of a file may have fewer. -/
  unit : Nat
  lead : List UInt8 → Lead
  unit_pos : 0 < unit

namespace Decoder

/-- The first token and the bytes after it; nothing at the end of the file. -/
def next? (d : Decoder) : List UInt8 → Option (Token × List UInt8)
  | [] => none
  | bytes@(_ :: _) =>
      match d.lead (bytes.take d.unit) with
      | .token t => some (t, bytes.drop d.unit)
      | .more count finish =>
          some (finish ((bytes.drop d.unit).take count),
            (bytes.drop d.unit).drop count)

@[simp] theorem next?_nil (d : Decoder) : d.next? [] = none := rfl

theorem next?_cases {d : Decoder} {bytes rest : List UInt8} {t : Token}
    (h : d.next? bytes = some (t, rest)) :
    bytes ≠ [] ∧
      ((d.lead (bytes.take d.unit) = .token t ∧ rest = bytes.drop d.unit) ∨
        ∃ count finish, d.lead (bytes.take d.unit) = .more count finish ∧
          t = finish ((bytes.drop d.unit).take count) ∧
          rest = (bytes.drop d.unit).drop count) := by
  cases bytes with
  | nil => simp at h
  | cons b bs =>
      refine ⟨by simp, ?_⟩
      simp only [next?] at h
      split at h
      · next t' hlead =>
          cases h
          exact Or.inl ⟨hlead, rfl⟩
      · next count finish hlead =>
          cases h
          exact Or.inr ⟨count, finish, hlead, rfl, rfl⟩

theorem length_lt_of_next? {d : Decoder} {bytes rest : List UInt8} {t : Token}
    (h : d.next? bytes = some (t, rest)) : rest.length < bytes.length := by
  cases bytes with
  | nil => simp at h
  | cons b bs =>
      have hpos := d.unit_pos
      simp only [next?] at h
      split at h
      · simp only [Option.some.injEq, Prod.mk.injEq] at h
        obtain ⟨-, rfl⟩ := h
        simp only [List.length_drop, List.length_cons]
        omega
      · simp only [Option.some.injEq, Prod.mk.injEq] at h
        obtain ⟨-, rfl⟩ := h
        simp only [List.length_drop, List.length_cons]
        omega

/-!
### All tokens of a file

The tokens are gathered newest first, so that a long file needs no deep recursion.
-/

def tokensOnto (d : Decoder) (seen : List Token) (bytes : List UInt8) : List Token :=
  match _h : d.next? bytes with
  | none => seen.reverse
  | some (t, rest) => d.tokensOnto (t :: seen) rest
termination_by bytes.length
decreasing_by exact length_lt_of_next? _h

def tokens (d : Decoder) (bytes : List UInt8) : List Token :=
  d.tokensOnto [] bytes

theorem tokensOnto_eq (d : Decoder) (seen : List Token) (bytes : List UInt8) :
    d.tokensOnto seen bytes = seen.reverse ++ d.tokens bytes := by
  induction bytes using (measure List.length).wf.induction generalizing seen with
  | _ bytes ih =>
      unfold tokens
      rw [tokensOnto, tokensOnto]
      split
      · simp
      · next t rest h =>
          have hlt := length_lt_of_next? h
          rw [ih rest hlt (t :: seen), ih rest hlt [t]]
          simp

theorem tokens_eq (d : Decoder) (bytes : List UInt8) :
    d.tokens bytes =
      match d.next? bytes with
      | none => []
      | some (t, rest) => t :: d.tokens rest := by
  unfold tokens
  rw [tokensOnto]
  split
  · next h => simp [h]
  · next t rest h =>
      rw [h, tokensOnto_eq]
      rfl

@[simp] theorem tokens_nil (d : Decoder) : d.tokens [] = [] := by
  rw [tokens_eq]
  rfl

theorem tokens_of_next? {d : Decoder} {bytes rest : List UInt8} {t : Token}
    (h : d.next? bytes = some (t, rest)) : d.tokens bytes = t :: d.tokens rest := by
  rw [tokens_eq, h]

theorem forall_mem_tokens {d : Decoder} {holds : Token → Prop}
    (h : ∀ {bytes t rest}, d.next? bytes = some (t, rest) → holds t)
    (bytes : List UInt8) : ∀ t ∈ d.tokens bytes, holds t := by
  induction bytes using (measure List.length).wf.induction with
  | _ bytes ih =>
      rw [tokens_eq]
      split
      · intro t ht
        cases ht
      · next t rest hnext =>
          exact List.forall_mem_cons.mpr ⟨h hnext, ih rest (length_lt_of_next? hnext)⟩

end Decoder

/-!
## UTF-8

A character beyond ASCII is a lead byte and one to three continuation bytes. The
lead byte fixes their number and narrows the first of them, which rules out
overlong forms, surrogates, and anything above the last code point.
-/

namespace Utf8

/-! ### Sequences -/

structure Shape where
  count : Nat
  /-- The bits of the code point that the lead byte holds. -/
  payload : Nat
  low : UInt8
  high : UInt8
  deriving DecidableEq, Repr

def shape? (b : UInt8) : Option Shape :=
  if 0xC2 ≤ b ∧ b ≤ 0xDF then some ⟨1, b.toNat - 0xC0, 0x80, 0xBF⟩
  else if b = 0xE0 then some ⟨2, 0x0, 0xA0, 0xBF⟩
  else if b = 0xED then some ⟨2, 0xD, 0x80, 0x9F⟩
  else if 0xE1 ≤ b ∧ b ≤ 0xEF then some ⟨2, b.toNat - 0xE0, 0x80, 0xBF⟩
  else if b = 0xF0 then some ⟨3, 0x0, 0x90, 0xBF⟩
  else if 0xF1 ≤ b ∧ b ≤ 0xF3 then some ⟨3, b.toNat - 0xF0, 0x80, 0xBF⟩
  else if b = 0xF4 then some ⟨3, 0x4, 0x80, 0x8F⟩
  else none

inductive Defect where
  | invalidStart
  | invalidContinuation
  | unexpectedEnd
  deriving DecidableEq, Repr

/-- Reads continuation bytes and adds their bits to the value so far. A defect comes
with the number of bytes of the sequence that were sound. -/
def continuation (value seen : Nat) (low high : UInt8) :
    Nat → List UInt8 → Except (Defect × Nat) (Nat × List UInt8)
  | 0, rest => .ok (value, rest)
  | _ + 1, [] => .error (.unexpectedEnd, seen)
  | count + 1, b :: rest =>
      if low ≤ b ∧ b ≤ high then
        continuation (value * 64 + (b.toNat - 0x80)) (seen + 1) 0x80 0xBF count rest
      else
        .error (.invalidContinuation, seen)

def codePoint (b : UInt8) (rest : List UInt8) :
    Except (Defect × Nat) (Nat × List UInt8) :=
  if b < 0x80 then
    .ok (b.toNat, rest)
  else
    match shape? b with
    | none => .error (.invalidStart, 1)
    | some s => continuation s.payload 1 s.low s.high s.count rest

def char? : List UInt8 → Option Char
  | [] => none
  | b :: rest =>
      match codePoint b rest with
      | .ok (n, []) => some (Char.ofNat n)
      | _ => none

def byte (n : Nat) : UInt8 :=
  UInt8.ofNat n

def encodeNat (n : Nat) : List UInt8 :=
  if n < 0x80 then
    [byte n]
  else if n < 0x800 then
    [byte (0xC0 + n / 64), byte (0x80 + n % 64)]
  else if n < 0x10000 then
    [byte (0xE0 + n / 4096), byte (0x80 + n / 64 % 64), byte (0x80 + n % 64)]
  else
    [byte (0xF0 + n / 262144), byte (0x80 + n / 4096 % 64),
      byte (0x80 + n / 64 % 64), byte (0x80 + n % 64)]

def encode (c : Char) : List UInt8 :=
  encodeNat c.toNat

/-! ### Tokens -/

/-- The number of further bytes that belong to a lead byte by its leading bits alone.
A sequence that long is one token, sound or not. -/
def announced? (b : UInt8) : Option Nat :=
  if 0xC0 ≤ b ∧ b ≤ 0xDF then some 1
  else if 0xE0 ≤ b ∧ b ≤ 0xEF then some 2
  else if 0xF0 ≤ b ∧ b ≤ 0xF7 then some 3
  else none

def tokenOf (bytes : List UInt8) : Token :=
  match char? bytes with
  | none => .invalid bytes
  | some c => if c = '\ufeff' then .bom else .valid bytes

def lead : List UInt8 → Lead
  | [b] =>
      match Token.ofAscii? b with
      | some t => .token t
      | none =>
          if b < 0x80 then
            .token (.valid [b])
          else
            match announced? b with
            | none => .token (.invalid [b])
            | some count => .more count fun rest => tokenOf (b :: rest)
  | other => .token (.invalid other)

def decoder : Decoder where
  unit := 1
  unit_pos := Nat.one_pos
  lead := lead

/-! ### Text -/

structure DecodeError where
  defect : Defect
  position : Nat
  length : Nat
  byte : UInt8
  deriving DecidableEq, Repr

namespace Defect

def message : Defect → String
  | invalidStart => "invalid start byte"
  | invalidContinuation => "invalid continuation byte"
  | unexpectedEnd => "unexpected end of data"

end Defect

namespace DecodeError

/-- A single byte is shown, of several only the positions. -/
def message (e : DecodeError) : String :=
  "'utf-8' codec can't decode " ++
    (if e.length = 1 then
      "byte 0x" ++ String.ofList (Text.hex 2 e.byte.toNat) ++ " in position " ++
        Text.decimal e.position
    else
      "bytes in position " ++ Text.decimal e.position ++ "-" ++
        Text.decimal (e.position + e.length - 1)) ++
    ": " ++ e.defect.message

end DecodeError

theorem length_le_of_continuation {value seen n : Nat} {low high : UInt8}
    {bytes rest : List UInt8} {count : Nat}
    (h : continuation value seen low high count bytes = .ok (n, rest)) :
    rest.length ≤ bytes.length := by
  induction count generalizing value seen low high bytes with
  | zero =>
      simp only [continuation, Except.ok.injEq, Prod.mk.injEq] at h
      simp [h.2]
  | succ count ih =>
      cases bytes with
      | nil => simp [continuation] at h
      | cons b bs =>
          simp only [continuation] at h
          split at h
          · exact Nat.le_succ_of_le (ih h)
          · simp at h

theorem length_le_of_codePoint {b : UInt8} {bytes rest : List UInt8} {n : Nat}
    (h : codePoint b bytes = .ok (n, rest)) : rest.length ≤ bytes.length := by
  unfold codePoint at h
  split at h
  · simp only [Except.ok.injEq, Prod.mk.injEq] at h
    simp [h.2]
  · split at h
    · simp at h
    · exact length_le_of_continuation h

def textFrom (position : Nat) : List UInt8 → Except DecodeError (List Char)
  | [] => .ok []
  | b :: bytes =>
      match _h : codePoint b bytes with
      | .error (defect, length) => .error ⟨defect, position, length, b⟩
      | .ok (n, rest) =>
          (textFrom (position + 1 + (bytes.length - rest.length)) rest).map
            (Char.ofNat n :: ·)
termination_by bytes => bytes.length
decreasing_by exact Nat.lt_succ_of_le (length_le_of_codePoint _h)

def text (bytes : List UInt8) : Except DecodeError (List Char) :=
  textFrom 0 bytes

end Utf8

/-!
## One byte per character

Without a character set every byte counts as a character. Latin-1 also reads one
byte at a time, but refuses the delete character, the second band of control
characters, and the no-break space.
-/

namespace SingleByte

def isLatin1 (b : UInt8) : Bool :=
  b < 0x7F || 0xA0 < b

def decoder (accepts : UInt8 → Bool) : Decoder where
  unit := 1
  unit_pos := Nat.one_pos
  lead
    | [b] =>
        match Token.ofAscii? b with
        | some t => .token t
        | none => .token (if accepts b then .valid [b] else .invalid [b])
    | other => .token (.invalid other)

def latin1 : Decoder :=
  decoder isLatin1

def unchecked : Decoder :=
  decoder fun _ => true

end SingleByte

/-!
## UTF-16

A unit is two bytes. A unit with the value of a high surrogate takes the next unit
as well, and the pair is sound when that one is a low surrogate.
-/

namespace Utf16

inductive ByteOrder where
  | bigEndian
  | littleEndian
  deriving DecidableEq, Repr

namespace ByteOrder

def pair (order : ByteOrder) (high low : UInt8) : List UInt8 :=
  match order with
  | bigEndian => [high, low]
  | littleEndian => [low, high]

def split? (order : ByteOrder) : List UInt8 → Option (UInt8 × UInt8)
  | [a, b] =>
      match order with
      | bigEndian => some (a, b)
      | littleEndian => some (b, a)
  | _ => none

end ByteOrder

def isHighSurrogate (high : UInt8) : Bool :=
  0xD8 ≤ high && high ≤ 0xDB

def isLowSurrogate (high : UInt8) : Bool :=
  0xDC ≤ high && high ≤ 0xDF

/-- The token of a high surrogate and the bytes after it. -/
def pairToken (order : ByteOrder) (unit trail : List UInt8) : Token :=
  match order.split? trail with
  | some (high, _) =>
      if isLowSurrogate high then .valid (unit ++ trail) else .invalid (unit ++ trail)
  | none => .invalid (unit ++ trail)

def lead (order : ByteOrder) (unit : List UInt8) : Lead :=
  match order.split? unit with
  | none => .token (.invalid unit)
  | some (high, low) =>
      if high = 0xFE ∧ low = 0xFF then
        .token .bom
      else if isHighSurrogate high then
        .more 2 (pairToken order unit)
      else if high = 0 then
        .token ((Token.ofAscii? low).getD (.valid unit))
      else
        .token (.valid unit)

def decoder (order : ByteOrder) : Decoder where
  unit := 2
  unit_pos := Nat.two_pos
  lead := lead order

end Utf16

/-!
## The decoder of a character set
-/

/-- The decoder for an optional character set. The set that requires a byte-order
mark reads like plain UTF-8; the mark is asked for by the check. -/
def Decoder.ofCharset : Option Charset → Decoder
  | none => SingleByte.unchecked
  | some .latin1 => SingleByte.latin1
  | some .utf8 => Utf8.decoder
  | some .utf8Bom => Utf8.decoder
  | some .utf16be => Utf16.decoder .bigEndian
  | some .utf16le => Utf16.decoder .littleEndian

end FileStyle
