import FileStyle.Document
import FileStyle.Encoding

/-!
# Styles

A style holds a value for each rule that is set, and is written in three formats.
-/

namespace FileStyle

/-!
## Styles

A style is the set of rules in force for one file. Every rule is optional, and a rule
that is not set is not checked.
-/

inductive EndOfLine where
  | lf
  | crlf
  | cr
  deriving DecidableEq, Repr

structure Columns where
  count : Nat
  pos : 0 < count
  deriving DecidableEq, Repr

structure Style where
  indentStyle : Option Indent := none
  indentSize : Option Columns := none
  tabWidth : Option Columns := none
  endOfLine : Option EndOfLine := none
  charset : Option Charset := none
  trimTrailingWhitespace : Option Bool := none
  insertFinalNewline : Option Bool := none
  deriving DecidableEq, Repr

namespace Indent

def label : Indent → String
  | space => "space"
  | tab => "tab"

def all : List Indent := [space, tab]

theorem mem_all (k : Indent) : k ∈ all := by
  cases k <;> simp [all]

end Indent

namespace Newline

def convention : Newline → EndOfLine
  | cr => .cr
  | lf => .lf

end Newline

namespace EndOfLine

def label : EndOfLine → String
  | lf => "lf"
  | crlf => "crlf"
  | cr => "cr"

def all : List EndOfLine := [lf, crlf, cr]

theorem mem_all (e : EndOfLine) : e ∈ all := by
  cases e <;> simp [all]

end EndOfLine

/-!
### Keys and values

Each rule has a key, by which style files name it, and a value that is a word, a
number or a truth value.
-/

inductive Key where
  | indentStyle
  | indentSize
  | tabWidth
  | endOfLine
  | charset
  | trimTrailingWhitespace
  | insertFinalNewline
  deriving DecidableEq, Repr

namespace Key

def label : Key → String
  | indentStyle => "indent_style"
  | indentSize => "indent_size"
  | tabWidth => "tab_width"
  | endOfLine => "end_of_line"
  | charset => "charset"
  | trimTrailingWhitespace => "trim_trailing_whitespace"
  | insertFinalNewline => "insert_final_newline"

def all : List Key :=
  [indentStyle, indentSize, tabWidth, endOfLine, charset, trimTrailingWhitespace,
    insertFinalNewline]

theorem mem_all (k : Key) : k ∈ all := by
  cases k <;> simp [all]

end Key

inductive Value where
  | word (text : String)
  | number (n : Nat)
  | flag (b : Bool)
  deriving DecidableEq, Repr

namespace Style

def value? (s : Style) : Key → Option Value
  | .indentStyle => s.indentStyle.map fun k => .word k.label
  | .indentSize => s.indentSize.map fun n => .number n.count
  | .tabWidth => s.tabWidth.map fun n => .number n.count
  | .endOfLine => s.endOfLine.map fun e => .word e.label
  | .charset => s.charset.map fun c => .word c.label
  | .trimTrailingWhitespace => s.trimTrailingWhitespace.map .flag
  | .insertFinalNewline => s.insertFinalNewline.map .flag

def entries (s : Style) : List (Key × Value) :=
  Key.all.filterMap fun k => (s.value? k).map fun v => (k, v)

def isEmpty (s : Style) : Bool :=
  s.entries.isEmpty

end Style

/-!
## Writing a style

A style is shown in three formats: as lines of a style file, as a JSON object, and as
a YAML mapping. Each lists the rules that are set, in order.
-/

namespace Value

def text : Value → String
  | word s => s
  | number n => Text.decimal n
  | flag b => if b then "true" else "false"

def document : Value → Document
  | word s => .text s
  | number n => .nat n
  | flag b => .flag b

end Value

inductive StyleFormat where
  | ini
  | json
  | yaml
  deriving DecidableEq, Repr

namespace StyleFormat

def label : StyleFormat → String
  | ini => "ini"
  | json => "json"
  | yaml => "yaml"

def all : List StyleFormat := [ini, json, yaml]

end StyleFormat

namespace Style

def renderIni (s : Style) : String :=
  String.join (s.entries.map fun e => e.1.label ++ " = " ++ e.2.text ++ "\n")

def renderJson (s : Style) : String :=
  (Document.object (s.entries.map fun e => (e.1.label, e.2.document))).render ++ "\n"

/-- No word that a style can hold needs quotes in YAML. -/
def renderYaml (s : Style) : String :=
  if s.isEmpty then
    "\x7b\x7d\n"
  else
    String.join (s.entries.map fun e => e.1.label ++ ": " ++ e.2.text ++ "\n")

def render (s : Style) : StyleFormat → String
  | .ini => s.renderIni
  | .json => s.renderJson
  | .yaml => s.renderYaml

end Style

end FileStyle
