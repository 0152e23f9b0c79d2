import FileStyle.Finding
import FileStyle.Proofs.Layout
import Mathlib.Data.List.Induction
import Mathlib.Data.List.TakeWhile

/-!
# The findings of a line

What a style says about a line, told from the whole line: its body, the terminator that
ends it, and the token after the terminator. No cursor takes part.
-/

namespace FileStyle

namespace Token

def isWrongIndent (s : Style) : Token → Bool
  | .indent .tab => s.indentStyle = some .space
  | .indent .space => s.indentStyle = some .tab
  | _ => false

def isUnreadable : Token → Bool
  | .bom => true
  | .invalid _ => true
  | _ => false

end Token

namespace Layout

open Token

/-! ## The parts of a body -/

def indentRun (body : List Token) : List Token :=
  body.takeWhile isIndent

def trailingLength (body : List Token) : Nat :=
  (body.reverse.takeWhile isIndent).length

def isBlank (body : List Token) : Bool :=
  body.all isIndent

theorem indentRun_of_isBlank {body : List Token} (h : isBlank body = true) :
    indentRun body = body := by
  have hall : ∀ t ∈ body, isIndent t = true := by simpa [isBlank] using h
  exact List.takeWhile_eq_self_iff.mpr hall

theorem indentRun_append_of_not_isBlank {body : List Token} (h : isBlank body = false)
    (more : List Token) : indentRun (body ++ more) = indentRun body := by
  induction body with
  | nil => simp [isBlank] at h
  | cons t body ih =>
      cases ht : isIndent t with
      | false => simp [indentRun, ht]
      | true =>
          have hbody : isBlank body = false := by simpa [isBlank, ht] using h
          simpa [indentRun, ht] using ih hbody

theorem isBlank_append (body more : List Token) :
    isBlank (body ++ more) = (isBlank body && isBlank more) := by
  simp [isBlank]

theorem trailingLength_of_isBlank {body : List Token} (h : isBlank body = true) :
    trailingLength body = body.length := by
  have hall : ∀ t ∈ body.reverse, isIndent t = true := by simpa [isBlank] using h
  rw [trailingLength, List.takeWhile_eq_self_iff.mpr hall, List.length_reverse]

theorem trailingLength_append_indent (body : List Token) (kind : Indent) :
    trailingLength (body ++ [.indent kind]) = trailingLength body + 1 := by
  have hindent : isIndent (.indent kind) = true := rfl
  simp [trailingLength, hindent]

theorem trailingLength_append_of_not_isIndent (body : List Token) {t : Token}
    (ht : t.isIndent = false) : trailingLength (body ++ [t]) = 0 := by
  simp [trailingLength, ht]

theorem trailingLength_ne_zero_iff (before : List Token) (last : Token) :
    trailingLength (before ++ [last]) ≠ 0 ↔ last.isIndent = true := by
  cases hlast : last.isIndent with
  | false => simp [trailingLength_append_of_not_isIndent before hlast]
  | true =>
      rcases eq_indent_of_isIndent hlast with ⟨kind, rfl⟩
      simp [trailingLength_append_indent]

theorem trailingLength_le_of_not_isIndent (before : List Token) {t : Token}
    (ht : t.isIndent = false) (after : List Token) :
    trailingLength (before ++ t :: after) ≤ after.length := by
  induction after using List.reverseRecOn with
  | nil => rw [trailingLength_append_of_not_isIndent before ht]; simp
  | append_singleton after last ih =>
      rw [← List.cons_append, ← List.append_assoc]
      cases hlast : last.isIndent with
      | false => rw [trailingLength_append_of_not_isIndent _ hlast]; simp
      | true =>
          rcases eq_indent_of_isIndent hlast with ⟨kind, rfl⟩
          rw [trailingLength_append_indent, List.length_append]
          exact Nat.succ_le_succ ih

theorem trailingLength_lt_of_not_isBlank {body : List Token} (h : isBlank body = false) :
    trailingLength body < body.length := by
  have hcontent : ∃ t ∈ body, t.isIndent = false := by simpa [isBlank] using h
  rcases hcontent with ⟨t, hmem, ht⟩
  rcases List.append_of_mem hmem with ⟨before, after, rfl⟩
  have hle := trailingLength_le_of_not_isIndent before ht after
  rw [List.length_append, List.length_cons]
  omega

/-! ## Findings -/

/-- The finding about the indentation of a body. Indentation of the wrong kind is
found in every line that is over or has content, and of the wrong length only before
content. -/
def indentFindings (s : Style) (line : Nat) (body : List Token) (isOver : Bool) :
    List Finding :=
  let run := indentRun body
  if (isOver || !isBlank body) && run.any (isWrongIndent s) then
    [⟨line, 1, run.length + 1, .indentStyle, none⟩]
  else if !isBlank body && s.indentSize.any (run.length % ·.count ≠ 0) then
    [⟨line, 1, run.length + 1, .indentSizeMismatch, some run.length⟩]
  else
    []

def unreadableFindings (line : Nat) (body : List Token) : List Finding :=
  (body.zipIdx 1).flatMap fun p =>
    if p.1.isUnreadable then [⟨line, p.2, p.2 + 1, .invalidCharacter, none⟩] else []

def trailingFindings (s : Style) (line : Nat) (body : List Token) : List Finding :=
  if s.trimTrailingWhitespace = some true ∧ trailingLength body ≠ 0 then
    [⟨line, body.length - trailingLength body + 1, body.length + 1,
      .trailingWhitespace, none⟩]
  else
    []

/-- Whether a terminator breaks the rule about terminators, given the token after it.
Two tokens are a convention of their own. A single one counts only once another token
follows, and a line feed before a carriage return follows no convention. -/
def isWrongEnding (s : Style) (ending : EndOfLine) (next : Option Token) : Bool :=
  match ending with
  | .crlf => s.endOfLine.any (· ≠ .crlf)
  | .cr => next.isSome && s.endOfLine.any (· ≠ .cr)
  | .lf =>
      next.isSome &&
        s.endOfLine.any fun e => e ≠ .lf || next = some (.newline .cr)

def endingFindings (s : Style) (line : Nat) (body : List Token) (ending : EndOfLine)
    (next : Option Token) : List Finding :=
  if isWrongEnding s ending next then
    [⟨line, body.length + 1, body.length + 2, .endOfLineMismatch, none⟩]
  else
    []

def lineFindings (s : Style) (line : Nat) (l : Line) (next : Option Token) :
    List Finding :=
  indentFindings s line l.body true ++ unreadableFindings line l.body ++
    trailingFindings s line l.body ++ endingFindings s line l.body l.ending next

def openFindings (s : Style) (line : Nat) (body : List Token) : List Finding :=
  indentFindings s line body false ++ unreadableFindings line body

def finalFindings (s : Style) (line : Nat) (rest : List Token) : List Finding :=
  if s.insertFinalNewline = some true ∧ rest ≠ [] then
    [⟨line, rest.length + 1, rest.length + 1, .noFinalNewline, none⟩]
  else
    []

def findingsFrom (s : Style) (line : Nat) : List Line → List Token → List Finding
  | [], rest => openFindings s line rest ++ finalFindings s line rest
  | l :: ls, rest =>
      lineFindings s line l (Layout.mk ls rest).tokens.head? ++
        findingsFrom s (line + 1) ls rest

def findings (s : Style) (l : Layout) : List Finding :=
  findingsFrom s 1 l.lines l.rest

/-! ## How the findings of an open body grow -/

theorem unreadableFindings_append (line : Nat) (body : List Token) (t : Token) :
    unreadableFindings line (body ++ [t]) =
      unreadableFindings line body ++
        if t.isUnreadable then
          [⟨line, body.length + 1, body.length + 2, .invalidCharacter, none⟩]
        else
          [] := by
  have hcol : ((1 + body.length : Nat) : Int) = body.length + 1 := by omega
  have hstop : ((body.length : Int) + 1 + 1) = body.length + 2 := by omega
  simp only [unreadableFindings, List.zipIdx_append, List.flatMap_append, List.zipIdx_cons,
    List.zipIdx_nil, List.flatMap_cons, List.flatMap_nil, List.append_nil, hcol, hstop]

theorem unreadableFindings_of_isBlank (line : Nat) {body : List Token}
    (h : isBlank body = true) : unreadableFindings line body = [] := by
  rw [unreadableFindings, List.flatMap_eq_nil_iff]
  intro p hp
  have hmem : p.1 ∈ body := List.fst_mem_of_mem_zipIdx hp
  have hindent : isIndent p.1 = true := List.all_eq_true.mp h p.1 hmem
  have hread : p.1.isUnreadable = false := by
    rcases eq_indent_of_isIndent hindent with ⟨kind, hkind⟩
    rw [hkind]
    rfl
  simp [hread]

theorem indentFindings_append_of_not_isBlank (s : Style) (line : Nat)
    {body : List Token} (h : isBlank body = false) (t : Token) (isOver : Bool) :
    indentFindings s line (body ++ [t]) isOver = indentFindings s line body isOver := by
  simp [indentFindings, indentRun_append_of_not_isBlank h, isBlank_append, h]

theorem indentFindings_of_isBlank (s : Style) (line : Nat) {body : List Token}
    (h : isBlank body = true) : indentFindings s line body false = [] := by
  simp [indentFindings, h]

theorem indentFindings_of_not_isBlank (s : Style) (line : Nat) {body : List Token}
    (h : isBlank body = false) (isOver : Bool) :
    indentFindings s line body isOver = indentFindings s line body true := by
  simp [indentFindings, h]

end Layout
end FileStyle
