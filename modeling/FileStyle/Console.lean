import FileStyle.Tree

/-!
# The console

What is not a report for other programs is shown on a console, which draws tables and
reads marks in brackets as styles. How it does so is not the program's business: the
program hands over a display, and the console writes something for it or refuses it.
The console is a parameter of every run, and so is the clock that times the checks.
-/

namespace FileStyle

/-! ## Displays -/

/-- A cell of a table. Only text that is not styled as a whole has marks in it. -/
inductive Cell where
  | styled (text style : String)
  | markup (text : String)
  deriving DecidableEq, Repr

structure Column where
  heading : String
  leastWidth : Option Nat := none
  rightAligned : Bool := false
  style : Option String := none
  deriving DecidableEq, Repr

structure Table where
  title : String
  titleStyle : String
  borderStyle : String
  columns : List Column
  rows : List (List Cell)
  deriving DecidableEq, Repr

inductive Display where
  | blank
  | markup (text : String)
  | table (t : Table)
  deriving DecidableEq, Repr

/-- A console, which refuses displays with errors of some type, and the readings of a
clock in seconds, by their number. -/
structure Host (ε : Type) where
  print : Display → Except ε String
  clock : Nat → Float

/-! ## Parts of a run -/

structure Output where
  stdout : String := ""
  stderr : String := ""
  saved : Option (Location × String) := none
  deriving DecidableEq, Repr

instance : Append Output where
  append o o' := ⟨o.stdout ++ o'.stdout, o.stderr ++ o'.stderr, o'.saved.or o.saved⟩

/-- A part of a run puts something out and then has a result, or stops the run. -/
structure Run (σ α : Type) where
  output : Output
  result : Except σ α

namespace Run

variable {σ α β : Type}

def bind (r : Run σ α) (next : α → Run σ β) : Run σ β :=
  match r.result with
  | .ok a => ⟨r.output ++ (next a).output, (next a).result⟩
  | .error stop => ⟨r.output, .error stop⟩

instance : Monad (Run σ) where
  pure a := ⟨{}, .ok a⟩
  bind := bind

def stop (reason : σ) : Run σ α :=
  ⟨{}, .error reason⟩

def print (text : String) : Run σ Unit :=
  ⟨{ stdout := text }, .ok ()⟩

def save (location : Location) (text : String) : Run σ Unit :=
  ⟨{ saved := some (location, text) }, .ok ()⟩

end Run
end FileStyle
