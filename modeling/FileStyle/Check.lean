import FileStyle.Encoding
import FileStyle.Finding
import FileStyle.Source
import FileStyle.Style

/-!
# Checking a file

The tokens of a file are fed to a cursor, which judges each line by the rules of a style.
-/

namespace FileStyle

/-!
## The cursor of a check

A check reads a file once, token by token. Its cursor holds the place that it has
reached and what it must remember of the line so far. A carriage return or a line
feed stays pending until the next token tells whether the two form one terminator;
until then the cursor still counts the columns of the line that has ended, while its
phase is already that of the next line.
-/

inductive Phase where
  | indent (length : Nat) (wrongStyle : Bool)
  | content
  | trailing (length : Nat)
  deriving DecidableEq, Repr

structure Cursor where
  line : Nat := 1
  col : Nat := 1
  phase : Phase := .indent 0 false
  pending : Option Newline := none
  last : Option Token := none
  deriving DecidableEq, Repr

namespace Cursor

def start : Cursor := {}

/-- The terminator just read occupies the column after the last token. -/
def terminatorFinding (c : Cursor) : Finding :=
  ⟨c.line, c.col, c.col + 1, .endOfLineMismatch, none⟩

def checkTerminator (style : Style) (c : Cursor) (ending : EndOfLine) : List Finding :=
  if style.endOfLine.any (· ≠ ending) then [c.terminatorFinding] else []

def nextLine (c : Cursor) : Cursor :=
  { c with line := c.line + 1, col := 1 }

def settle (style : Style) (c : Cursor) : Cursor × List Finding :=
  match c.pending with
  | none => (c, [])
  | some kind =>
      ({ c.nextLine with pending := none }, checkTerminator style c kind.convention)

def isWrong (style : Style) (kind : Indent) : Bool :=
  style.indentStyle.any (· ≠ kind)

/-! ### One handler for each kind of token -/

def onIndent (style : Style) (c : Cursor) (kind : Indent) : Cursor × List Finding :=
  match c.phase with
  | .content => ({ c with phase := .trailing 1, col := c.col + 1, pending := none }, [])
  | .trailing length =>
      ({ c with phase := .trailing (length + 1), col := c.col + 1, pending := none }, [])
  | .indent length wrong =>
      let (c, found) := if length = 0 then c.settle style else (c, [])
      ({ c with
          phase := .indent (length + 1) (wrong || isWrong style kind)
          col := c.col + 1
          pending := none },
        found)

def checkLineEnd (style : Style) (c : Cursor) : List Finding :=
  let blanks (length : Nat) : List Finding :=
    if length ≠ 0 ∧ style.trimTrailingWhitespace = some true then
      [⟨c.line, (c.col : Int) - length, c.col, .trailingWhitespace, none⟩]
    else
      []
  match c.phase with
  | .content => []
  | .trailing length => blanks length
  | .indent length wrong =>
      (if wrong then [⟨c.line, (c.col : Int) - length, c.col, .indentStyle, none⟩] else []) ++
        blanks length

/-- A terminator after a pending one either completes it or ends a line of its own.
A line feed before a carriage return follows no convention. -/
def onSecondNewline (style : Style) (c : Cursor) (first second : Newline) :
    Cursor × List Finding :=
  match first, second with
  | .cr, .lf => ({ c.nextLine with pending := none }, checkTerminator style c .crlf)
  | .lf, .cr =>
      ({ c.nextLine with pending := some .cr },
        if style.endOfLine.isSome then [c.terminatorFinding] else [])
  | first, second =>
      ({ c.nextLine with pending := some second },
        checkTerminator style c first.convention)

def onNewline (style : Style) (c : Cursor) (kind : Newline) : Cursor × List Finding :=
  let found := checkLineEnd style c
  let c := { c with phase := .indent 0 false }
  match c.pending with
  | none => ({ c with pending := some kind }, found)
  | some first =>
      let (c, more) := c.onSecondNewline style first kind
      (c, found ++ more)

def checkIndent (style : Style) (c : Cursor) (length : Nat) (wrong : Bool) :
    List Finding :=
  if wrong then
    [⟨c.line, (c.col : Int) - length, c.col, .indentStyle, none⟩]
  else if style.indentSize.any (length % ·.count ≠ 0) then
    [⟨c.line, (c.col : Int) - length, c.col, .indentSizeMismatch, some length⟩]
  else
    []

def onContent (style : Style) (c : Cursor) (isValid : Bool) : Cursor × List Finding :=
  let (c, found) :=
    match c.phase with
    | .indent length wrong =>
        let (c, found) := c.settle style
        (c, found ++ checkIndent style c length wrong)
    | _ => (c, [])
  ({ c with phase := .content, col := c.col + 1 },
    found ++
      if isValid then [] else [⟨c.line, c.col, c.col + 1, .invalidCharacter, none⟩])

def feed (style : Style) (c : Cursor) (t : Token) : Cursor × List Finding :=
  let (c, found) :=
    match t with
    | .indent kind => c.onIndent style kind
    | .newline kind => c.onNewline style kind
    | .valid _ => c.onContent style true
    | .invalid _ => c.onContent style false
    | .bom => c.onContent style false
  ({ c with last := some t }, found)

def finish (style : Style) (c : Cursor) : List Finding :=
  if style.insertFinalNewline = some true ∧ c.last.any (!·.isNewline) then
    [⟨c.line, c.col, c.col, .noFinalNewline, none⟩]
  else
    []

/-!
### All tokens

The findings are gathered newest first, so that a long file needs no deep recursion.
-/

def feedAllOnto (style : Style) (found : List Finding) (c : Cursor) :
    List Token → Cursor × List Finding
  | [] => (c, found.reverse)
  | t :: ts =>
      feedAllOnto style ((c.feed style t).2.reverseAux found) (c.feed style t).1 ts

def feedAll (style : Style) (c : Cursor) (ts : List Token) : Cursor × List Finding :=
  feedAllOnto style [] c ts

theorem feedAllOnto_eq (style : Style) (found : List Finding) (c : Cursor)
    (ts : List Token) :
    feedAllOnto style found c ts =
      ((c.feedAll style ts).1, found.reverse ++ (c.feedAll style ts).2) := by
  induction ts generalizing found c with
  | nil => simp [feedAll, feedAllOnto]
  | cons t ts ih =>
      simp only [feedAll, feedAllOnto]
      rw [ih, ih]
      simp [List.reverseAux_eq]

@[simp] theorem feedAll_nil (style : Style) (c : Cursor) :
    c.feedAll style [] = (c, []) := rfl

theorem feedAll_cons (style : Style) (c : Cursor) (t : Token) (ts : List Token) :
    c.feedAll style (t :: ts) =
      (((c.feed style t).1.feedAll style ts).1,
        (c.feed style t).2 ++ ((c.feed style t).1.feedAll style ts).2) := by
  rw [feedAll, feedAllOnto, feedAllOnto_eq]
  simp [List.reverseAux_eq]

end Cursor

/-!
## Checking a file

A file is decoded by the character set of its style and its tokens are fed to the
cursor. A byte-order mark at the start is no content when the character set asks for
one or allows one; where it is required and missing, that is the first finding.
-/

namespace Style

def checkTokens (s : Style) (ts : List Token) : List Finding :=
  let (c, found) := Cursor.start.feedAll s ts
  found ++ c.finish s

def bomNotFound : Finding :=
  ⟨1, 0, 0, .bomNotFound, none⟩

def preamble (charset : Option Charset) (ts : List Token) : List Finding × List Token :=
  match charset, ts with
  | some .utf8Bom, .bom :: ts => ([], ts)
  | some .utf8Bom, ts => ([bomNotFound], ts)
  | some .utf16be, .bom :: ts => ([], ts)
  | some .utf16le, .bom :: ts => ([], ts)
  | _, ts => ([], ts)

def checkDecoded (s : Style) (ts : List Token) : List Finding :=
  let (found, ts) := preamble s.charset ts
  found ++ s.checkTokens ts

def decoder (s : Style) : Decoder :=
  Decoder.ofCharset s.charset

def check (s : Style) (bytes : List UInt8) : List Finding :=
  s.checkDecoded (s.decoder.tokens bytes)

/-- The findings of a source. A source that fails has none. -/
def checkSource (s : Style) (source : Source) : Except ReadError (List Finding) :=
  match s.decoder.drain source with
  | (_, .error e) => .error e
  | (ts, .ok _) => .ok (s.checkDecoded ts)

end Style

end FileStyle
