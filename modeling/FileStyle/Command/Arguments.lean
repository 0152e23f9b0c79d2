import FileStyle.Report
import FileStyle.Style

/-!
# Command lines

Options start with a hyphen, everything else is an operand. An option has a long name
after two hyphens and perhaps a letter after one; letters can be joined. The value of
an option follows it, either as the next argument or, after an equals sign or directly
after the letter, in the same one. Two hyphens alone end the options. The first operand
names a command, which has options of its own.
-/

namespace FileStyle

structure OptionSpec (α : Type) where
  id : α
  letter : Option Char
  name : String
  takesValue : Bool

structure Arguments (α : Type) where
  options : List (α × String)
  operands : List String

namespace Arguments

variable {α : Type}

def withOption (id : α) (value : String) (a : Arguments α) : Arguments α :=
  { a with options := (id, value) :: a.options }

def withOperand (operand : String) (a : Arguments α) : Arguments α :=
  { a with operands := operand :: a.operands }

def values [DecidableEq α] (a : Arguments α) (id : α) : List String :=
  (a.options.filter (·.1 = id)).map (·.2)

def last? [DecidableEq α] (a : Arguments α) (id : α) : Option String :=
  (a.values id).getLast?

def isSet [DecidableEq α] (a : Arguments α) (id : α) : Bool :=
  !(a.values id).isEmpty

/-- What an argument that starts with a hyphen means. -/
inductive Reading (α : Type) where
  | complete (given : List (α × String))
  | awaiting (given : List (α × String)) (id : α)
  | unknown

def readLetters (specs : List (OptionSpec α)) : List Char → Reading α
  | [] => .complete []
  | c :: rest =>
      match specs.find? (·.letter = some c) with
      | none => .unknown
      | some spec =>
          if spec.takesValue then
            if rest = [] then .awaiting [] spec.id
            else .complete [(spec.id, String.ofList rest)]
          else
            match readLetters specs rest with
            | .complete given => .complete ((spec.id, "") :: given)
            | .awaiting given id => .awaiting ((spec.id, "") :: given) id
            | .unknown => .unknown

def splitValue (s : List Char) : List Char × Option (List Char) :=
  if '=' ∈ s then
    (s.takeWhile (· ≠ '='), some (s.dropWhile (· ≠ '=')).tail)
  else
    (s, none)

def readOption (specs : List (OptionSpec α)) (s : List Char) : Reading α :=
  match s with
  | '-' :: '-' :: long =>
      let (name, value) := splitValue long
      match specs.find? (·.name.toList = name), value with
      | none, _ => .unknown
      | some spec, none =>
          if spec.takesValue then .awaiting [] spec.id else .complete [(spec.id, "")]
      | some spec, some value =>
          if spec.takesValue then .complete [(spec.id, String.ofList value)] else .unknown
  | _ => readLetters specs s.tail

def isOption (s : List Char) : Bool :=
  s.head? = some '-' && s.length ≠ 1

def read (specs : List (OptionSpec α)) (mixed : Bool) :
    List String → Option (Arguments α)
  | [] => some ⟨[], []⟩
  | arg :: rest =>
      if arg = "--" then
        some ⟨[], rest⟩
      else if isOption arg.toList then
        match readOption specs arg.toList with
        | .unknown => none
        | .complete given =>
            (read specs mixed rest).map fun a => given.foldr (fun g => withOption g.1 g.2) a
        | .awaiting given id =>
            match rest with
            | [] => none
            | value :: rest =>
                (read specs mixed rest).map fun a =>
                  given.foldr (fun g => withOption g.1 g.2) (a.withOption id value)
      else if mixed then
        (read specs mixed rest).map (withOperand arg)
      else
        some ⟨[], arg :: rest⟩

end Arguments

/-! ## Commands -/

structure CheckOptions where
  format : String := ReportFormat.text.label
  /-- Where to save the report; nowhere when empty. -/
  output : String := ""
  verbose : Bool := false
  debug : Bool := false
  deriving DecidableEq, Repr

inductive Command where
  | version
  | check (options : CheckOptions) (paths : List String)
  | showStyle (format : String) (path : String)
  | fix
  deriving DecidableEq, Repr

namespace Command

inductive GlobalOption where
  | version
  deriving DecidableEq

def globalOptions : List (OptionSpec GlobalOption) :=
  [⟨.version, some 'V', "version", false⟩]

inductive CheckOption where
  | format
  | output
  | verbose
  | debug
  deriving DecidableEq

def checkOptions : List (OptionSpec CheckOption) :=
  [⟨.format, some 'f', "format", true⟩, ⟨.output, some 'o', "output", true⟩,
    ⟨.verbose, some 'v', "verbose", false⟩, ⟨.debug, none, "debug", false⟩]

def showStyleOptions : List (OptionSpec CheckOption) :=
  [⟨.format, some 'f', "format", true⟩]

def readCheck (args : List String) : Option Command := do
  let a ← Arguments.read checkOptions true args
  if a.operands.isEmpty then
    none
  else
    return check
      { format := (a.last? .format).getD ReportFormat.text.label
        output := (a.last? .output).getD ""
        verbose := a.isSet .verbose
        debug := a.isSet .debug }
      a.operands

def readShowStyle (args : List String) : Option Command := do
  let a ← Arguments.read showStyleOptions true args
  match a.operands with
  | [path] => return showStyle ((a.last? .format).getD StyleFormat.ini.label) path
  | _ => none

def readFix (args : List String) : Option Command := do
  let a ← Arguments.read ([] : List (OptionSpec CheckOption)) true args
  if a.operands.isEmpty then return fix else none

def read (args : List String) : Option Command := do
  let a ← Arguments.read globalOptions false args
  if a.isSet .version then
    return version
  else
    match a.operands with
    | "check" :: rest => readCheck rest
    | "show-config" :: rest => readShowStyle rest
    | "fix" :: rest => readFix rest
    | _ => none

end Command
end FileStyle
