import FileStyle.Binary64
import FileStyle.Console
import FileStyle.Document
import FileStyle.Finding

/-!
# Reports

A report is about several files, each with its findings and the time that its check
took. The same report can be written as lines of text, as JSON and in the static
analysis interchange format, or shown on a console.
-/

namespace FileStyle

def programName : String := "editorconfig-lint"

def programVersion : String := "0.1.0"

structure FileReport where
  file : String
  findings : List Finding
  /-- How long the check took, in milliseconds. -/
  duration : Float

inductive ReportFormat where
  | text
  | terminal
  | json
  | sarif
  deriving DecidableEq, Repr

namespace ReportFormat

def label : ReportFormat → String
  | text => "text"
  | terminal => "terminal"
  | json => "json"
  | sarif => "sarif"

def all : List ReportFormat := [text, terminal, json, sarif]

end ReportFormat

namespace Report

def total (files : List FileReport) : Nat :=
  files.foldr (fun f n => f.findings.length + n) 0

def located (files : List FileReport) : List (String × Finding) :=
  files.flatMap fun f => f.findings.map fun finding => (f.file, finding)

theorem length_located (files : List FileReport) :
    (located files).length = total files := by
  induction files with
  | nil => rfl
  | cons f rest ih =>
      simp only [located, total, List.flatMap_cons, List.length_append, List.length_map,
        List.foldr_cons] at ih ⊢
      rw [ih]

/-! ## Reports as text -/

def lines (files : List FileReport) : List String :=
  (located files).map fun entry => entry.2.describe entry.1

def renderText (files : List FileReport) : String :=
  String.join ((lines files).map (· ++ "\n"))

/-! ## Reports as JSON -/

/-- Durations are written by position from a ten-thousandth up to ten to the sixteenth,
and exponents have at least two digits. -/
def durationLayout : Binary64.Layout := ⟨-4, 16, 2⟩

def durationText (x : Float) : String :=
  match Binary64.ofFloat? x with
  | some b => durationLayout.write b
  | none => if x.isNaN then "NaN" else if x < 0 then "-Infinity" else "Infinity"

def findingDocument (file : String) (f : Finding) : Document :=
  .object
    ([("line", .int f.line), ("start", .int f.start), ("end", .int f.stop),
      ("reason", .text f.reason.label), ("message", .text (f.describe file))] ++
      (f.indentLength.map fun n => ("indent_len", Document.int n)).toList)

def fileDocument (f : FileReport) : Document :=
  .object [("file", .text f.file), ("total_diagnoses", .nat f.findings.length),
    ("diagnoses", .list (f.findings.map (findingDocument f.file))),
    ("duration_ms", .number (durationText f.duration))]

def document (files : List FileReport) : Document :=
  .object [("version", .text "1.0"), ("checked_files", .nat files.length),
    ("total_diagnoses", .nat (total files)), ("files", .list (files.map fileDocument))]

def renderJson (files : List FileReport) : String :=
  (document files).render

end Report

/-!
## The interchange format

A report in it lists the rules that were broken, each once and in the order in which it
first was, and then every finding with the identifier of its rule. Columns count from
one there, so a finding before the first column is moved to it.
-/

namespace Reason

def description : Reason → String
  | indentStyle => "Indentation uses the wrong indent style"
  | indentSizeMismatch => "Indentation is not a multiple of indent_size"
  | endOfLineMismatch => "Line terminator does not match end_of_line"
  | trailingWhitespace => "Line has trailing whitespace"
  | noFinalNewline => "File does not end with a newline"
  | bomNotFound => "File does not start with a byte-order mark"
  | invalidCharacter => "Byte sequence is invalid in the configured charset"

end Reason

namespace Report

namespace Sarif

def distinct {α : Type} [DecidableEq α] (xs : List α) : List α :=
  xs.foldl (fun seen x => if x ∈ seen then seen else seen ++ [x]) []

def rules (files : List FileReport) : List Reason :=
  distinct ((located files).map (·.2.reason))

structure Region where
  startLine : Int
  startColumn : Int
  endColumn : Int
  deriving DecidableEq, Repr

structure Result where
  rule : Reason
  message : String
  file : String
  region : Region
  deriving DecidableEq, Repr

def region (f : Finding) : Region :=
  ⟨f.line, max f.start 1, max f.stop 1⟩

def result (file : String) (f : Finding) : Result where
  rule := f.reason
  message := f.reasonText ++ ": " ++ f.reason.description
  file := file
  region := region f

def results (files : List FileReport) : List Result :=
  (located files).map fun entry => result entry.1 entry.2

/-! ### The document -/

def level : Document := .text "error"

def ruleDocument (r : Reason) : Document :=
  .object [("id", .text r.label), ("name", .text r.label),
    ("shortDescription", .object [("text", .text r.description)]),
    ("defaultConfiguration", .object [("level", level)])]

def regionDocument (r : Region) : Document :=
  .object [("startLine", .int r.startLine), ("startColumn", .int r.startColumn),
    ("endColumn", .int r.endColumn)]

def resultDocument (r : Result) : Document :=
  .object [("ruleId", .text r.rule.label), ("level", level),
    ("message", .object [("text", .text r.message)]),
    ("locations", .list [.object [("physicalLocation", .object [
      ("artifactLocation", .object [("uri", .text r.file)]),
      ("region", regionDocument r.region)])]])]

def schema : String :=
  "https://raw.githubusercontent.com/oasis-tcs/sarif-spec/main/sarif-2.1/schema/" ++
    "sarif-schema-2.1.0.json"

def document (files : List FileReport) : Document :=
  let driver : Document :=
    .object [("name", .text programName), ("version", .text programVersion),
      ("rules", .list ((rules files).map ruleDocument))]
  .object [("$schema", .text schema), ("version", .text "2.1.0"),
    ("runs", .list [.object [("tool", .object [("driver", driver)]),
      ("results", .list ((results files).map resultDocument))]])]

end Sarif

def renderSarif (files : List FileReport) : String :=
  (Sarif.document files).render

end Report

/-!
## Reports on the console

The findings are shown in a table with a row for each, or a single sentence says that
there are none. A summary of the run can follow.
-/

namespace Reason

def style : Reason → String
  | invalidCharacter => "bold white on red"
  | bomNotFound => "bold white on red"
  | endOfLineMismatch => "bold white on dark_orange"
  | indentStyle => "bold black on yellow"
  | indentSizeMismatch => "bold black on yellow"
  | trailingWhitespace => "bold black on bright_cyan"
  | noFinalNewline => "bold black on bright_cyan"

end Reason

namespace Report

def columns : List Column :=
  [{ heading := "Reason", leastWidth := some 20 },
    { heading := "File", style := some "magenta" },
    { heading := "Line", rightAligned := true, style := some "green" },
    { heading := "Columns", rightAligned := true, style := some "cyan" }]

def row (file : String) (f : Finding) : List Cell :=
  [.styled (" " ++ f.reasonText ++ " ") f.reason.style, .markup file,
    .markup (Text.signedDecimal f.line), .markup f.rangeText]

def table (files : List FileReport) : Table where
  title := "editorconfig-lint diagnoses"
  titleStyle := "bold"
  borderStyle := "dim"
  columns := columns
  rows := (located files).map fun entry => row entry.1 entry.2

def clean (files : List FileReport) : Nat :=
  files.countP (·.findings.isEmpty)

def totalDuration (files : List FileReport) : Float :=
  files.foldl (fun sum f => sum + f.duration) 0

def summary (files : List FileReport) : List Display :=
  [.blank,
    .markup ("[dim]Files checked:[/dim]  " ++ Text.decimal files.length),
    .markup ("[dim]Clean files:[/dim]    " ++ Text.decimal (clean files)),
    .markup ("[dim]Diagnoses:[/dim]      " ++ Text.decimal (total files)),
    .markup ("[dim]Duration:[/dim]       " ++ Binary64.fixedText 0 (totalDuration files) ++
      "ms")]

/-- What a report hands to the console, with or without a summary. -/
def displays (files : List FileReport) (summarized : Bool) : List Display :=
  [.blank,
    if total files = 0 then
      .markup "[bold green]No editorconfig violations found.[/bold green]"
    else
      .table (table files)] ++
    if summarized then summary files else []

end Report
end FileStyle
