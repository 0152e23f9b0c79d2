import FileStyle.Report
import Mathlib

/-!
# Agreement of reports

A report can be written as lines of text, as a JSON document, in the interchange format and
as a table. All of them show the same findings in the same order, and count them alike. To
say so, the documents are read back: field by field, from the whole report to one finding.
-/

namespace FileStyle

/-! ## Reading documents -/

namespace Document

def get? (d : Document) (key : String) : Option Document :=
  match d with
  | object fields => (fields.find? (·.1 = key)).map (·.2)
  | _ => none

def at? (d : Document) : List String → Option Document
  | [] => some d
  | key :: keys => (d.get? key).bind (·.at? keys)

def items : Document → List Document
  | list ds => ds
  | _ => []

def itemsOf (d : Document) (key : String) : List Document :=
  ((d.get? key).map items).getD []

end Document

namespace Report

open Document

/-! ## Reports as JSON -/

def messages (report : Document) : List (Option Document) :=
  (report.itemsOf "files").flatMap fun file => (file.itemsOf "diagnoses").map (·.get? "message")

theorem itemsOf_files (files : List FileReport) :
    (document files).itemsOf "files" = files.map fileDocument :=
  rfl

theorem itemsOf_diagnoses (f : FileReport) :
    (fileDocument f).itemsOf "diagnoses" = f.findings.map (findingDocument f.file) :=
  rfl

theorem messages_document (files : List FileReport) :
    messages (document files) = (lines files).map fun line => some (.text line) := by
  rw [messages, itemsOf_files, lines, located]
  simp only [List.flatMap_map, List.map_flatMap, List.map_map, itemsOf_diagnoses]
  rfl

theorem total_eq_sum (files : List FileReport) :
    total files = (files.map (·.findings.length)).sum := by
  induction files with
  | nil => rfl
  | cons f files ih =>
      rw [List.map_cons, List.sum_cons, ← ih]
      rfl

theorem length_lines (files : List FileReport) : (lines files).length = total files := by
  rw [lines, List.length_map, length_located]

/-! ## The interchange format -/

namespace Sarif

def listed (report : Document) : List Document :=
  (report.itemsOf "runs").flatMap (·.itemsOf "results")

/-- A result presents a finding in a file: its message starts with the reason, and its one
location is where the finding is, in columns from one. -/
structure Presents (r : Document) (file : String) (f : Finding) : Prop where
  message : r.at? ["message", "text"] = some (.text (f.reasonText ++ ": " ++ f.reason.description))
  location : ∃ l, r.itemsOf "locations" = [l] ∧
    l.at? ["physicalLocation", "artifactLocation", "uri"] = some (.text file) ∧
    l.at? ["physicalLocation", "region", "startLine"] = some (.int f.line) ∧
    l.at? ["physicalLocation", "region", "startColumn"] = some (.int (max f.start 1)) ∧
    l.at? ["physicalLocation", "region", "endColumn"] = some (.int (max f.stop 1))

theorem presents_resultDocument (file : String) (f : Finding) :
    Presents (resultDocument (result file f)) file f :=
  ⟨rfl, _, rfl, rfl, rfl, rfl, rfl⟩

theorem listed_document (files : List FileReport) :
    listed (document files) = (located files).map fun e => resultDocument (result e.1 e.2) := by
  have hruns : listed (document files) = (results files).map resultDocument ++ [] := rfl
  rw [hruns, List.append_nil, results, List.map_map]
  rfl

end Sarif

/-! ## Displays -/

def rowsOf (displays : List Display) : List (List Cell) :=
  displays.flatMap fun d =>
    match d with
    | .table t => t.rows
    | _ => []

def noneFound : Display :=
  .markup "[bold green]No editorconfig violations found.[/bold green]"

theorem rowsOf_displays (files : List FileReport) (summarized : Bool) :
    rowsOf (displays files summarized) = (located files).map fun e => row e.1 e.2 := by
  have hsummary : rowsOf (if summarized then summary files else []) = [] := by
    cases summarized with
    | false => rfl
    | true => rfl
  have htable : rowsOf [.blank, if total files = 0 then noneFound else .table (table files)] =
      (located files).map fun e => row e.1 e.2 := by
    by_cases hnone : total files = 0
    · have hlocated : located files = [] := by
        rw [← List.length_eq_zero_iff, length_located, hnone]
      rw [if_pos hnone, hlocated]
      rfl
    · rw [if_neg hnone]
      exact List.append_nil _
  calc
    rowsOf (displays files summarized) =
        rowsOf [.blank, if total files = 0 then noneFound else .table (table files)] ++
          rowsOf (if summarized then summary files else []) := List.flatMap_append
    _ = (located files).map fun e => row e.1 e.2 := by
      rw [htable, hsummary, List.append_nil]

/-! ## Reports without findings -/

theorem total_eq_zero_iff (files : List FileReport) :
    total files = 0 ↔ ∀ f ∈ files, f.findings = [] := by
  rw [← length_located, List.length_eq_zero_iff, located, List.flatMap_eq_nil_iff]
  simp only [List.map_eq_nil_iff]

theorem renderText_eq_empty_iff (files : List FileReport) :
    renderText files = "" ↔ total files = 0 := by
  rw [← length_located, List.length_eq_zero_iff, renderText, lines]
  cases located files with
  | nil => simp
  | cons e rest => simp

theorem noneFound_mem_displays_iff (files : List FileReport) (summarized : Bool) :
    noneFound ∈ displays files summarized ↔ total files = 0 := by
  have hsummary : noneFound ∉ summary files := by
    simp [summary, noneFound, String.ext_iff]
  constructor
  · intro hmem
    by_contra hsome
    rw [displays, if_neg hsome] at hmem
    cases summarized with
    | false => simp [noneFound] at hmem
    | true => simp [noneFound] at hmem; exact hsummary hmem
  · intro hnone
    rw [displays, if_pos hnone]
    exact List.mem_append_left _ (by simp [noneFound])

/-! ## All reports -/

structure CountAlike (files : List FileReport) (summarized : Bool) (totals : List Nat) :
    Prop where
  findings : totals = files.map (·.findings.length)
  own : ((document files).itemsOf "files").map (·.get? "total_diagnoses") =
    totals.map fun n => some (.nat n)
  shown : ((document files).itemsOf "files").map (fun f => (f.itemsOf "diagnoses").length) = totals
  all : (document files).get? "total_diagnoses" = some (.nat totals.sum)
  lines : (lines files).length = totals.sum
  results : (Sarif.listed (Sarif.document files)).length = totals.sum
  rows : (rowsOf (displays files summarized)).length = totals.sum

theorem countAlike (files : List FileReport) (summarized : Bool) :
    CountAlike files summarized (files.map (·.findings.length)) where
  findings := rfl
  own := by
    rw [itemsOf_files, List.map_map, List.map_map]
    rfl
  shown := by
    rw [itemsOf_files, List.map_map]
    apply List.map_congr_left
    intro f _
    rw [Function.comp_apply, itemsOf_diagnoses, List.length_map]
  all := by
    rw [← total_eq_sum]
    rfl
  lines := by rw [length_lines, total_eq_sum]
  results := by rw [Sarif.listed_document, List.length_map, length_located, total_eq_sum]
  rows := by rw [rowsOf_displays, List.length_map, length_located, total_eq_sum]

/-- At the same place of the text, of the results and of the table is the same finding. -/
structure ShowAlike (files : List FileReport) (summarized : Bool) (i : Nat) (file : String)
    (f : Finding) : Prop where
  line : (lines files)[i]? =
    some ("error: " ++ f.reasonText ++ " at " ++ file ++ ":" ++ Text.signedDecimal f.line ++
      ":" ++ f.rangeText)
  result : ∃ r, (Sarif.listed (Sarif.document files))[i]? = some r ∧ Sarif.Presents r file f
  row : ∃ style, (rowsOf (displays files summarized))[i]? =
    some [.styled (" " ++ f.reasonText ++ " ") style, .markup file,
      .markup (Text.signedDecimal f.line), .markup f.rangeText]

theorem showAlike_of_located {files : List FileReport} {i : Nat} {file : String} {f : Finding}
    (h : (located files)[i]? = some (file, f)) (summarized : Bool) :
    ShowAlike files summarized i file f where
  line := by
    rw [lines, List.getElem?_map, h]
    rfl
  result := by
    refine ⟨_, ?_, Sarif.presents_resultDocument file f⟩
    rw [Sarif.listed_document, List.getElem?_map, h]
    rfl
  row := by
    rw [rowsOf_displays, List.getElem?_map, h]
    exact ⟨f.reason.style, rfl⟩

/-- All reports show the same findings: the messages of the document are the lines of the
text; every report counts alike; at each place are the same reason, file, line and columns;
and the console is told that there is nothing to show just when no file has a finding. -/
theorem reports_agree (files : List FileReport) (summarized : Bool) :
    messages (document files) = (lines files).map (fun line => some (.text line)) ∧
      (∃ totals, CountAlike files summarized totals) ∧
      (document files).get? "checked_files" = some (.nat files.length) ∧
      (∀ i : Fin (lines files).length, ∃ file f, ShowAlike files summarized i file f) ∧
      (renderText files = "" ↔ noneFound ∈ displays files summarized) ∧
      (renderText files = "" ↔ ∀ f ∈ files, f.findings = []) := by
  refine ⟨messages_document files, ⟨_, countAlike files summarized⟩, rfl, ?_, ?_, ?_⟩
  · intro i
    have hlength : i < (located files).length := by
      rw [length_located, ← length_lines]
      exact i.isLt
    exact ⟨_, _, showAlike_of_located (List.getElem?_eq_getElem hlength) summarized⟩
  · rw [renderText_eq_empty_iff, noneFound_mem_displays_iff]
  · rw [renderText_eq_empty_iff, total_eq_zero_iff]

end Report
end FileStyle
