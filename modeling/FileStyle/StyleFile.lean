import FileStyle.Text.Lowercase

/-!
# Style files

The text of a style file is read line by line into sections with their properties.
-/

namespace FileStyle

/-!
## Ordered properties

Properties are pairs of a key and a value in which no key occurs twice. They keep the
order in which their keys first came; a value given again for a key replaces the
earlier one where that stood.
-/

abbrev Properties := List (String × String)

namespace Properties

def put (ps : Properties) (key value : String) : Properties :=
  match ps with
  | [] => [(key, value)]
  | (k, v) :: rest =>
      if k = key then (key, value) :: rest else (k, v) :: put rest key value

def get? (ps : Properties) (key : String) : Option String :=
  (ps.find? (·.1 = key)).map (·.2)

def putAll (ps : Properties) (pairs : List (String × String)) : Properties :=
  pairs.foldl (fun ps pair => put ps pair.1 pair.2) ps

def ofList (pairs : List (String × String)) : Properties :=
  putAll [] pairs

theorem get?_put (ps : Properties) (key value k : String) :
    (ps.put key value).get? k = if k = key then some value else ps.get? k := by
  induction ps with
  | nil =>
      by_cases h : k = key
      · simp [put, get?, h]
      · simp [put, get?, h, Ne.symm h]
  | cons p rest ih =>
      obtain ⟨k', v'⟩ := p
      simp only [get?] at ih
      simp only [put]
      by_cases h : k' = key <;> by_cases hk : k = key <;> by_cases hk' : k' = k <;>
        simp_all [get?]

/-- A key that is put again keeps its place, and a new one comes last. -/
theorem keys_put (ps : Properties) (key value : String) :
    (ps.put key value).map (·.1) =
      if key ∈ ps.map (·.1) then ps.map (·.1) else ps.map (·.1) ++ [key] := by
  induction ps with
  | nil => simp [put]
  | cons p rest ih =>
      obtain ⟨k', v'⟩ := p
      simp only [put]
      by_cases h : k' = key
      · simp [h]
      · by_cases hmem : key ∈ rest.map (·.1) <;> simp_all [Ne.symm h]

end Properties

/-!
## Style files

A style file is read line by line. A line is blank, a comment, the header of a
section, or a pair of key and value. Pairs before the first header carry no meaning,
except that `root` may stand anywhere; within a section a later pair replaces an
earlier one with the same key. The first line that is none of these spoils the file.
-/

structure Section where
  name : String
  line : Nat
  properties : Properties
  deriving DecidableEq, Repr

inductive LineDefect where
  | unterminatedHeader
  | noSeparator
  | missingKey
  deriving DecidableEq, Repr

namespace LineDefect

def message : LineDefect → String
  | unterminatedHeader => "unterminated section header"
  | noSeparator => "expected 'key = value'"
  | missingKey => "missing key"

end LineDefect

structure ParseError where
  line : Nat
  defect : LineDefect
  deriving DecidableEq, Repr

/-!
### Lines
-/

inductive Line where
  | ignored
  | header (name : String)
  | pair (key value : String)
  deriving DecidableEq, Repr

namespace Line

/-- The name in a header, given the text after its opening bracket. The last closing
bracket ends the name, and what follows it is passed over. -/
def readHeader (s : List Char) : Except LineDefect Line :=
  match s.reverse.dropWhile (· ≠ ']') with
  | [] => .error .unterminatedHeader
  | _ :: name => .ok (.header (String.ofList name.reverse))

def isSeparator (c : Char) : Bool :=
  c = '=' || c = ':'

def readPair (s : List Char) : Except LineDefect Line :=
  match s.dropWhile (fun c => !isSeparator c) with
  | [] => .error .noSeparator
  | _ :: value =>
      let key := Text.lowercase (Text.trim (s.takeWhile fun c => !isSeparator c))
      if key = [] then
        .error .missingKey
      else
        .ok (.pair (String.ofList key) (String.ofList (Text.trim value)))

def read (s : List Char) : Except LineDefect Line :=
  match s with
  | [] => .ok .ignored
  | c :: rest =>
      if c = '#' ∨ c = ';' then .ok .ignored
      else if c = '[' then readHeader rest
      else readPair s

end Line

/-!
### Files
-/

structure StyleSheet where
  /-- Whether the search for further style files ends here. -/
  root : Bool := false
  sections : List Section := []
  deriving DecidableEq, Repr

namespace StyleSheet

/-- While a file is read, its sections are held newest first. -/
def addLine (sheet : StyleSheet) (number : Nat) : Line → StyleSheet
  | .ignored => sheet
  | .header name => { sheet with sections := ⟨name, number, []⟩ :: sheet.sections }
  | .pair key value =>
      if key = "root" then
        { sheet with root := Text.lowercase value.toList = "true".toList }
      else
        match sheet.sections with
        | [] => sheet
        | current :: earlier =>
            { sheet with
              sections :=
                { current with properties := current.properties.put key value } :: earlier }

/-- The text of a line that is read: without surrounding blanks and, on the first line,
without the byte-order marks that then come first. -/
def lineText (number : Nat) (raw : List Char) : List Char :=
  if number = 1 then
    (Text.trim raw).dropWhile (· = '\ufeff')
  else
    Text.trim raw

def addLines (sheet : StyleSheet) (number : Nat) :
    List (List Char) → Except ParseError StyleSheet
  | [] => .ok sheet
  | raw :: rest =>
      match Line.read (lineText number raw) with
      | .error defect => .error ⟨number, defect⟩
      | .ok line => addLines (sheet.addLine number line) (number + 1) rest

def parse (text : List Char) : Except ParseError StyleSheet :=
  (addLines {} 1 (Text.lines text)).map fun sheet =>
    { sheet with sections := sheet.sections.reverse }

end StyleSheet

end FileStyle
