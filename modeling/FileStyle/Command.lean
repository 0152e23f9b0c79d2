import FileStyle.Command.Course
import FileStyle.Terminal.Width

/-!
# Running commands

A command runs on a plain terminal. Its outcome has an exit code; an error of the terminal
ends the run with exit code one.
-/

namespace FileStyle

/-!
## A plain terminal

A console without colours and of unlimited width, with a clock that stands still. Marks
are read as styles and leave nothing behind; a mark that closes what is not open is
refused. Columns of a table are as wide as their widest cell, in terminal cells, and a
row is as high as its highest cell.
-/

namespace Terminal

/-! ### Marks -/

inductive MarkError where
  | notOpen (mark : String) (position : Nat)
  | nothingToClose (position : Nat)
  deriving DecidableEq, Repr

def MarkError.message : MarkError → String
  | notOpen mark position =>
      "closing tag '[" ++ mark ++ "]' at position " ++ Text.decimal position ++
        " doesn't match any open tag"
  | nothingToClose position =>
      "closing tag '[/]' at position " ++ Text.decimal position ++ " has nothing to close"

def mark? (piece : List Char) : Option (List Char × List Char) :=
  let mark := piece.takeWhile (· ≠ ']')
  let starts (c : Char) : Bool := ('a' ≤ c && c ≤ 'z') || c ∈ ['#', '/', '@']
  if mark.head?.any starts && mark ≠ piece then
    some (mark, piece.drop (mark.length + 1))
  else
    none

def styleName (s : List Char) : List Char :=
  Text.lowercase (Text.trim s)

def applyMark (opened : List (List Char)) (mark : List Char) (position : Nat) :
    Except MarkError (List (List Char)) :=
  match mark.takeWhile (· ≠ '=') with
  | '/' :: name =>
      let name := styleName name
      if name ≠ [] then
        if name ∈ opened then .ok (opened.erase name)
        else .error (.notOpen (String.ofList mark) position)
      else if opened = [] then
        .error (.nothingToClose position)
      else
        .ok opened.tail
  | name => .ok (styleName name :: opened)

/-- What is left of a text in front of a bracket and of the pieces behind brackets. A
backslash takes its meaning from the bracket after it. -/
def unmarkPieces (opened : List (List Char)) (position : Nat) (before : List Char) :
    List (List Char) → Except MarkError (List Char)
  | [] => .ok before
  | piece :: pieces =>
      let bracket := position + before.length
      let slashes := (before.reverse.takeWhile (· = '\\')).length
      match mark? piece with
      | none =>
          (unmarkPieces opened (bracket + 1) piece pieces).map fun shown =>
            before.take (before.length - min slashes 1) ++ '[' :: shown
      | some (mark, behind) => do
          let kept := before.take (before.length - (slashes + 1) / 2)
          let next := bracket + mark.length + 2
          if slashes % 2 = 1 then
            return kept ++ '[' :: mark ++ ']' :: (← unmarkPieces opened next behind pieces)
          else
            let opened ← applyMark opened mark bracket
            return kept ++ (← unmarkPieces opened next behind pieces)

def unmark (s : String) : Except MarkError String :=
  match Text.pieces '[' s.toList with
  | [] => .ok ""
  | before :: pieces => (unmarkPieces [] 0 before pieces).map String.ofList

/-! ### Tables -/

def cellText : Cell → Except MarkError String
  | .styled text _ => .ok text
  | .markup text => unmark text

def broadest (texts : List String) : Nat :=
  texts.foldl (fun w s => max w (Text.broadest s.toList)) 0

def widths (columns : List Column) (rows : List (List String)) : List Nat :=
  columns.zipIdx.map fun (column, i) =>
    max (column.leastWidth.getD 0)
      (broadest (column.heading :: rows.map fun row => row.getD i ""))

def spaces (n : Nat) : String :=
  String.ofList (List.replicate n ' ')

def pad (rightAligned : Bool) (w : Nat) (s : String) : String :=
  let filler := spaces (w - Text.width s.toList)
  if rightAligned then filler ++ s else s ++ filler

/-- The lines of a row. Below a cell with fewer lines than another there is nothing. -/
def rowLines (bar : String) (columns : List (Column × Nat)) (row : List String) :
    List String :=
  let cells := columns.zip row |>.map fun ((column, w), s) =>
    (column, w, (Text.columnLines w s.toList).map String.ofList)
  let height := cells.foldl (fun n (_, _, lines) => max n lines.length) 0
  (List.range height).map fun i =>
    cells.foldl (fun line (column, w, lines) =>
      line ++ " " ++ pad column.rightAligned w (lines.getD i "") ++ " " ++ bar) bar

def rule (stroke : Char) (left crossing right : String) (ws : List Nat) : String :=
  left ++ crossing.intercalate (ws.map fun w => String.ofList (List.replicate (w + 2) stroke)) ++
    right

def titleLine (title : String) (ws : List Nat) : String :=
  let total := ws.foldl (fun n w => n + w + 3) 1
  spaces ((total - Text.width title.toList) / 2) ++ title

def tableLines (t : Table) : Except MarkError (List String) := do
  let rows ← t.rows.mapM fun row => row.mapM cellText
  let ws := widths t.columns rows
  let columns := t.columns.zip ws
  let heading := t.columns.map (·.heading)
  return [titleLine t.title ws, rule '━' "┏" "┳" "┓" ws] ++
    rowLines "┃" columns heading ++ [rule '━' "┡" "╇" "┩" ws] ++
    rows.flatMap (rowLines "│" columns) ++ [rule '─' "└" "┴" "┘" ws]

/-! ### The terminal -/

def lines : Display → Except MarkError (List String)
  | .blank => .ok [""]
  | .markup text => (unmark text).map ([·])
  | .table t => tableLines t

def host : Host MarkError where
  print d := (lines d).map fun ls => String.join (ls.map (· ++ "\n"))
  clock _ := 0

end Terminal

/-- The lines of a report on a plain terminal. A display that is refused has none. -/
def Report.terminalLines (files : List FileReport) (summarized : Bool) : List String :=
  (displays files summarized).flatMap fun d => (Terminal.lines d).toOption.getD []

/-! ## Outcomes -/

namespace Command

structure Outcome extends Output where
  exit : Nat
  deriving DecidableEq, Repr

/-- What a command does not foresee. What it has put out before is lost. -/
inductive Failure where
  | resolve (error : ResolveError)
  | unwritable (path : Path) (fault : PathFault)
  deriving DecidableEq, Repr

namespace Failure

def message : Failure → String
  | resolve error => error.message
  | unwritable path fault => fault.message path.text

end Failure

def run (c : Command) (t : Tree) (cwd : Location) : Except Failure Outcome :=
  let course := c.course Terminal.host t cwd
  match course.ending with
  | .exit code => .ok { course.toOutput with exit := code }
  | .crash (.resolve error) => .error (.resolve error)
  | .crash (.unwritable path fault) => .error (.unwritable path fault)
  | .crash (.console error) =>
      let stderr := course.stderr ++ error.message ++ "\n"
      .ok { course.toOutput with stderr := stderr, exit := 1 }

end Command

end FileStyle
