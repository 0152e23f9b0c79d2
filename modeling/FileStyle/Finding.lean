import FileStyle.Text

/-!
# Findings

A finding is one violation of a rule: where it is and what is wrong there. Lines and
columns count from one; a span of columns includes its start and excludes its end,
and a span whose ends are equal is a point. Places are integers, since a report may
be given findings that no check has made.
-/

namespace FileStyle

inductive Reason where
  | indentStyle
  | indentSizeMismatch
  | endOfLineMismatch
  | trailingWhitespace
  | noFinalNewline
  | bomNotFound
  | invalidCharacter
  deriving DecidableEq, Repr

namespace Reason

def label : Reason → String
  | indentStyle => "IndentStyle"
  | indentSizeMismatch => "IndentSizeMismatch"
  | endOfLineMismatch => "EndOfLineMismatch"
  | trailingWhitespace => "TrailingWhiteSpaces"
  | noFinalNewline => "NoFinalNewline"
  | bomNotFound => "BomNotFound"
  | invalidCharacter => "InvalidCharacter"

def all : List Reason :=
  [indentStyle, indentSizeMismatch, endOfLineMismatch, trailingWhitespace,
    noFinalNewline, bomNotFound, invalidCharacter]

theorem mem_all (r : Reason) : r ∈ all := by
  cases r <;> simp [all]

end Reason

structure Finding where
  line : Int
  start : Int
  stop : Int
  reason : Reason
  /-- The length of the indentation, when the finding is about it. -/
  indentLength : Option Int := none
  deriving DecidableEq, Repr

namespace Finding

/-- The reason, with the length of the indentation when that is what is wrong. -/
def reasonText (f : Finding) : String :=
  if f.reason = .indentSizeMismatch then
    f.reason.label ++ "(" ++ (f.indentLength.map Text.signedDecimal).getD "None" ++ ")"
  else
    f.reason.label

def rangeText (f : Finding) : String :=
  if f.start = f.stop then
    Text.signedDecimal f.start
  else
    Text.signedDecimal f.start ++ "," ++ Text.signedDecimal f.stop

def describe (f : Finding) (file : String) : String :=
  "error: " ++ f.reasonText ++ " at " ++ file ++ ":" ++ Text.signedDecimal f.line ++
    ":" ++ f.rangeText

end Finding
end FileStyle
