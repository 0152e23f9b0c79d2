import FileStyle.Text

/-!
# JSON documents

Reports for programs are trees of JSON values. A document is written with two spaces
for each level, in ASCII alone: any other character is escaped by its UTF-16 units.
-/

namespace FileStyle

inductive Document where
  | flag (b : Bool)
  /-- A number is given by its text. -/
  | number (digits : String)
  | text (s : String)
  | list (items : List Document)
  | object (fields : List (String × Document))

namespace Document

def nat (n : Nat) : Document :=
  number (Text.decimal n)

def int (n : Int) : Document :=
  number (Text.signedDecimal n)

/-! ## Text -/

def unitEscape (n : Nat) : List Char :=
  '\\' :: 'u' :: Text.hex 4 n

/-- A character beyond the first plane takes two units. -/
def escapedNat (n : Nat) : List Char :=
  if n < 0x10000 then
    unitEscape n
  else
    unitEscape (0xD800 + (n - 0x10000) / 0x400) ++
      unitEscape (0xDC00 + (n - 0x10000) % 0x400)

def escaped (c : Char) : List Char :=
  if c = '"' then ['\\', '"']
  else if c = '\\' then ['\\', '\\']
  else if c = '\n' then ['\\', 'n']
  else if c = '\r' then ['\\', 'r']
  else if c = '\t' then ['\\', 't']
  else if c = '\x08' then ['\\', 'b']
  else if c = '\x0c' then ['\\', 'f']
  else if 0x20 ≤ c.toNat ∧ c.toNat ≤ 0x7E then [c]
  else escapedNat c.toNat

def quotedText (s : String) : String :=
  "\"" ++ String.ofList (s.toList.flatMap escaped) ++ "\""

/-! ## Layout -/

def newline (depth : Nat) : String :=
  String.ofList ('\n' :: List.replicate (2 * depth) ' ')

mutual

def write (depth : Nat) : Document → String
  | flag b => if b then "true" else "false"
  | number digits => digits
  | text s => quotedText s
  | list [] => "[]"
  | list (item :: items) =>
      "[" ++ newline (depth + 1) ++ write (depth + 1) item ++ writeItems (depth + 1) items ++
        newline depth ++ "]"
  | object [] => "\x7b\x7d"
  | object ((key, value) :: fields) =>
      "\x7b" ++ newline (depth + 1) ++ quotedText key ++ ": " ++ write (depth + 1) value ++
        writeFields (depth + 1) fields ++ newline depth ++ "\x7d"

def writeItems (depth : Nat) : List Document → String
  | [] => ""
  | item :: items => "," ++ newline depth ++ write depth item ++ writeItems depth items

def writeFields (depth : Nat) : List (String × Document) → String
  | [] => ""
  | (key, value) :: fields =>
      "," ++ newline depth ++ quotedText key ++ ": " ++ write depth value ++
        writeFields depth fields

end

def render (d : Document) : String :=
  d.write 0

end Document
end FileStyle
