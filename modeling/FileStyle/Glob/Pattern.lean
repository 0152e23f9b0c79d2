import FileStyle.Glob.Brace

/-!
# Patterns of section names

An alternative of a section name is compiled to a pattern, which a path matches or not.
-/

namespace FileStyle

/-!
## Patterns

Once its braces are expanded, a section name is a pattern: a sequence of atoms, each
of which matches a slice of a path. Only the double star and the separator with
directories in between match across path separators.
-/

namespace Glob

/-! ### Character sets -/

structure CharSet where
  negated : Bool
  ranges : List (Char × Char)
  deriving DecidableEq, Repr

namespace CharSet

def has (s : CharSet) (c : Char) : Bool :=
  s.ranges.any (fun r => r.1 ≤ c && c ≤ r.2) != s.negated

/-- The ranges of a class body. A hyphen between two characters makes a range of them;
any other character, a hyphen at either end included, stands for itself. -/
def readRanges : List Char → Except GlobError (List (Char × Char))
  | [] => .ok []
  | first :: '-' :: last :: rest =>
      if last < first then
        .error (.descendingRange first last)
      else
        (readRanges rest).map ((first, last) :: ·)
  | c :: rest => (readRanges rest).map ((c, c) :: ·)

/-- A negated class never has the path separator, whatever its body says. The separator
is read as if it stood before the body, so that a hyphen after the negation makes a
range that starts there. -/
def read (negated : Bool) (body : List Char) : Except GlobError CharSet :=
  (readRanges (if negated then '/' :: body else body)).map (⟨negated, ·⟩)

end CharSet

/-! ### Atoms -/

inductive Atom where
  | literal (c : Char)
  /-- A separator, or two with any directories between them. -/
  | deepSeparator
  | anything
  /-- Any text without a separator. -/
  | run
  /-- One character that is no separator. -/
  | single
  | oneOf (set : CharSet)
  deriving DecidableEq, Repr

abbrev Pattern := List Atom

def splitNegation : List Char → Bool × List Char
  | '!' :: body => (true, body)
  | '^' :: body => (true, body)
  | body => (false, body)

/-- The negation, the body and what follows of a class, given the text after its opening
bracket. A class that is not closed or has no body is none. -/
def splitClass (s : List Char) : Option (Bool × List Char × List Char) :=
  let (negated, body) := splitNegation (s.takeWhile (· ≠ ']'))
  if ']' ∈ s ∧ body ≠ [] then
    some (negated, body, (s.dropWhile (· ≠ ']')).tail)
  else
    none

theorem length_of_splitClass {s body after : List Char} {negated : Bool}
    (h : splitClass s = some (negated, body, after)) : after.length ≤ s.length := by
  simp only [splitClass] at h
  split at h
  · simp only [Option.some.injEq, Prod.mk.injEq] at h
    obtain ⟨-, -, rfl⟩ := h
    have := (List.dropWhile_suffix (l := s) (fun c => decide (c ≠ ']'))).length_le
    simp only [List.length_tail]
    omega
  · simp at h

namespace Pattern

def read : List Char → Except GlobError Pattern
  | [] => .ok []
  | '\\' :: c :: rest => (read rest).map (.literal c :: ·)
  | '/' :: '*' :: '*' :: '/' :: rest => (read rest).map (.deepSeparator :: ·)
  | '*' :: '*' :: rest => (read rest).map (.anything :: ·)
  | '*' :: rest => (read rest).map (.run :: ·)
  | '?' :: rest => (read rest).map (.single :: ·)
  | '[' :: rest =>
      match _h : splitClass rest with
      | none => (read rest).map (.literal '[' :: ·)
      | some (negated, body, after) =>
          match CharSet.read negated body with
          | .error e => .error e
          | .ok set => (read after).map (.oneOf set :: ·)
  | c :: rest => (read rest).map (.literal c :: ·)
termination_by s => s.length
decreasing_by
  · exact Nat.lt_succ_of_lt (Nat.lt_succ_self _)
  · exact Nat.lt_add_of_pos_right (Nat.succ_pos 3)
  · exact Nat.lt_succ_of_lt (Nat.lt_succ_self _)
  · exact Nat.lt_succ_self _
  · exact Nat.lt_succ_self _
  · exact Nat.lt_succ_self _
  · exact Nat.lt_succ_of_le (length_of_splitClass _h)
  · exact Nat.lt_succ_self _

end Pattern
end Glob

/-!
## Matching a path

A pattern is matched from its end. Marks tell, for a text and each of its tails, from
the longest to the empty one, whether the rest of the pattern matches exactly that
tail; every atom turns the marks for what follows it into the marks for itself in one
pass over the text.
-/

namespace Glob

/-- One mark for each tail of a text, the longest tail first. -/
abbrev Marks := List Bool

namespace Marks

def whole (marks : Marks) : Bool :=
  marks.headD false

def atEnd : List Char → Marks
  | [] => [true]
  | _ :: s => false :: atEnd s

def afterOne (test : Char → Bool) : List Char → Marks → Marks
  | c :: s, _ :: marks => (test c && whole marks) :: afterOne test s marks
  | _, _ => [false]

def afterMany (test : Char → Bool) : List Char → Marks → Marks
  | c :: s, mark :: marks =>
      let below := afterMany test s marks
      (mark || (test c && whole below)) :: below
  | _, marks => marks

def afterSeparator : List Char → Marks → Marks
  | c :: s, _ :: marks =>
      let below := afterSeparator s marks
      ((c == '/' && whole marks) || whole below) :: below
  | _, _ => [false]

end Marks

namespace Atom

def mark (a : Atom) (s : List Char) (marks : Marks) : Marks :=
  match a with
  | literal c => Marks.afterOne (· == c) s marks
  | single => Marks.afterOne (· != '/') s marks
  | oneOf set => Marks.afterOne set.has s marks
  | run => Marks.afterMany (· != '/') s marks
  | anything => Marks.afterMany (fun _ => true) s marks
  | deepSeparator =>
      Marks.afterOne (· == '/') s
        (List.zipWith (· || ·) marks (Marks.afterSeparator s marks))

end Atom

namespace Pattern

def marks (p : Pattern) (s : List Char) : Marks :=
  p.foldr (fun a marks => a.mark s marks) (Marks.atEnd s)

def accepts (p : Pattern) (s : List Char) : Bool :=
  Marks.whole (p.marks s)

/-- Whether the pattern matches the text, or what is left of it behind a separator. -/
def acceptsBelow (p : Pattern) (s : List Char) : Bool :=
  p.accepts s || Marks.whole (Marks.afterSeparator s (p.marks s))

end Pattern
end Glob

/-!
## Section names as path matchers

A section name without a separator is about the names of files, in whichever directory
they are. With a separator it is about paths from the directory of the style file; a
separator at its start only says so, and a double star with a separator at its start
frees it again.
-/

namespace Glob

structure Matcher where
  floating : Bool
  patterns : List Pattern
  deriving DecidableEq, Repr

/-- Whether a section name floats, and the glob that remains of it. -/
def anchoring (name : List Char) : Bool × List Char :=
  let (floating, glob) :=
    if '/' ∈ name then
      (false, if name.head? = some '/' then name.tail else name)
    else
      (true, name)
  match glob with
  | '*' :: '*' :: '/' :: rest => (true, rest)
  | _ => (floating, glob)

namespace Matcher

def readPatterns : List (List Glyph) → Except GlobError (List Pattern)
  | [] => .ok []
  | gs :: others => do
      let p ← Pattern.read (Glyph.toText gs)
      let ps ← readPatterns others
      return p :: ps

/-- The matcher of a section name. All of its groups are expanded before any pattern is
read. -/
def ofName (name : String) : Except GlobError Matcher := do
  let (floating, glob) := anchoring name.toList
  let expanded ← expand (Glyph.ofText glob)
  let patterns ← readPatterns expanded
  return ⟨floating, patterns⟩

def accepts (m : Matcher) (path : String) : Bool :=
  m.patterns.any fun p =>
    if m.floating then p.acceptsBelow path.toList else p.accepts path.toList

end Matcher

/-- Whether a section is about a path, which is relative to the directory of the style
file. -/
def sectionMatches (name path : String) : Except GlobError Bool :=
  (Matcher.ofName name).map (·.accepts path)

end Glob

end FileStyle
