import FileStyle.Style
import FileStyle.Text.Lowercase

/-!
# Reading a style from properties

Properties are pairs of texts, as style files give them. Case and surrounding blanks
do not matter, keys that no rule has are passed over, and a later property replaces an
earlier one with the same key; the value `unset` takes the key away. What then
remains is validated rule by rule.
-/

namespace FileStyle

inductive StyleError where
  | notAmong (key : Key) (value : String) (choices : List String)
  | notAnInteger (key : Key) (value : String)
  | notPositive (key : Key) (value : String)
  | notABoolean (key : Key) (value : String)
  deriving DecidableEq, Repr

namespace StyleError

def key : StyleError → Key
  | notAmong k _ _ => k
  | notAnInteger k _ => k
  | notPositive k _ => k
  | notABoolean k _ => k

def value : StyleError → String
  | notAmong _ v _ => v
  | notAnInteger _ v => v
  | notPositive _ v => v
  | notABoolean _ v => v

def expectation : StyleError → String
  | notAmong _ _ choices => "expected " ++ " | ".intercalate choices
  | notAnInteger _ _ => "expected an integer"
  | notPositive _ _ => "must be positive"
  | notABoolean _ _ => "expected true | false"

def message (e : StyleError) : String :=
  "Invalid value for " ++ e.key.label ++ ": " ++ Text.quoted e.value ++ " (" ++
    e.expectation ++ ")"

end StyleError

/-!
## Settings

Settings hold the effective value of every key: the last one given, if any.
-/

/-- Keys and values are compared without regard to case and surrounding blanks. -/
def normalize (s : String) : String :=
  String.ofList (Text.lowercase (Text.trim s.toList))

def Key.ofLabel? (label : String) : Option Key :=
  Key.all.find? (·.label = label)

abbrev Settings := Key → Option String

namespace Settings

def empty : Settings := fun _ => none

def put (s : Settings) (k : Key) (v : Option String) : Settings :=
  fun k' => if k' = k then v else s k'

def add (s : Settings) (property : String × String) : Settings :=
  match Key.ofLabel? (normalize property.1) with
  | none => s
  | some k =>
      let v := normalize property.2
      s.put k (if v = "unset" then none else some v)

def ofProperties (properties : List (String × String)) : Settings :=
  properties.foldl add empty

end Settings

/-!
## Validation
-/

namespace Value

def readWord {α : Type} (choices : List (String × α)) (k : Key) (v : String) :
    Except StyleError α :=
  match choices.find? (·.1 = v) with
  | some choice => .ok choice.2
  | none => .error (.notAmong k v (choices.map (·.1)))

def readColumns (k : Key) (v : String) : Except StyleError Columns :=
  match Text.integer v.toList with
  | .error _ => .error (.notAnInteger k v)
  | .ok n =>
      if h : 0 < n then
        .ok ⟨n.toNat, by omega⟩
      else
        .error (.notPositive k v)

def readFlag (k : Key) (v : String) : Except StyleError Bool :=
  if v = "true" then .ok true
  else if v = "false" then .ok false
  else .error (.notABoolean k v)

def readIfSet {α : Type} (settings : Settings) (k : Key)
    (read : Key → String → Except StyleError α) : Except StyleError (Option α) :=
  match settings k with
  | none => .ok none
  | some v => (read k v).map some

/-- The indentation may be as wide as a tabulator, however wide that is. -/
def readIndentSize (settings : Settings) (tabWidth : Option Columns) :
    Except StyleError (Option Columns) :=
  if settings .indentSize = some "tab" then
    .ok tabWidth
  else
    readIfSet settings .indentSize readColumns

end Value

namespace Style

def ofSettings (settings : Settings) : Except StyleError Style := do
  let indentStyle ←
    Value.readIfSet settings .indentStyle
      (Value.readWord (Indent.all.map fun k => (k.label, k)))
  let endOfLine ←
    Value.readIfSet settings .endOfLine
      (Value.readWord (EndOfLine.all.map fun e => (e.label, e)))
  let charset ←
    Value.readIfSet settings .charset
      (Value.readWord (Charset.all.map fun c => (c.label, c)))
  let tabWidth ← Value.readIfSet settings .tabWidth Value.readColumns
  let indentSize ← Value.readIndentSize settings tabWidth
  let trimTrailingWhitespace ←
    Value.readIfSet settings .trimTrailingWhitespace Value.readFlag
  let insertFinalNewline ← Value.readIfSet settings .insertFinalNewline Value.readFlag
  return {
    indentStyle, indentSize, tabWidth, endOfLine, charset, trimTrailingWhitespace,
    insertFinalNewline }

def ofProperties (properties : List (String × String)) : Except StyleError Style :=
  ofSettings (Settings.ofProperties properties)

end Style
end FileStyle
