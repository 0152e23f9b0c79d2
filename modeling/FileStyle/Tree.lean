import FileStyle.Text

/-!
# Paths and file trees

Paths are followed in a tree of files and directories.
-/

namespace FileStyle

/-!
## Paths

A path is a sequence of names, from a directory that is left open, from the root, or
from a root written with two separators, which stays distinct. Empty names and single
dots are dropped when a path is read; double dots are kept, since what they lead to is
not decided by the text alone.
-/

inductive Anchor where
  | relative
  | root
  | doubleRoot
  deriving DecidableEq, Repr

namespace Anchor

def text : Anchor → String
  | relative => ""
  | root => "/"
  | doubleRoot => "//"

end Anchor

structure Path where
  anchor : Anchor
  names : List String
  deriving DecidableEq, Repr

namespace Path

def anchorOf : List Char → Anchor
  | '/' :: '/' :: '/' :: _ => .root
  | '/' :: '/' :: _ => .doubleRoot
  | '/' :: _ => .root
  | _ => .relative

def ofText (s : String) : Path where
  anchor := anchorOf s.toList
  names :=
    ((Text.pieces '/' s.toList).filter fun name => name ≠ [] ∧ name ≠ ['.']).map String.ofList

def joined (names : List String) : String :=
  "/".intercalate names

def text (p : Path) : String :=
  if p.anchor = .relative ∧ p.names = [] then
    "."
  else
    p.anchor.text ++ joined p.names

/-- The first path followed by the second, which if it has a root is left alone. -/
def append (p q : Path) : Path :=
  if q.anchor = .relative then
    { p with names := p.names ++ q.names }
  else
    q

def parent (p : Path) : Path :=
  { p with names := p.names.dropLast }

def parents (p : Path) : List Path :=
  (List.range p.names.length).reverse.map fun n => { p with names := p.names.take n }

def below? (p directory : Path) : Option (List String) :=
  if p.anchor = directory.anchor ∧ directory.names <+: p.names then
    some (p.names.drop directory.names.length)
  else
    none

end Path

/-!
## File trees

A tree tells what is at a location: a file with its bytes, a directory, or nothing. A
location is the names that lead to it from the root, without dots. Paths are followed
name by name, and only a directory can be passed through. A file can be locked, so that
the program may not read it. There are no links, every directory can be searched, and
every file can be written.
-/

inductive Entry where
  | file (bytes : List UInt8)
  | locked (bytes : List UInt8)
  | directory
  deriving DecidableEq, Repr

inductive Contents where
  | bytes (bytes : List UInt8)
  | locked
  deriving DecidableEq, Repr

abbrev Location := List String

structure Tree where
  entries : List (Location × Entry)
  deriving Repr

inductive PathFault where
  | notFound
  | notADirectory
  | isADirectory
  deriving DecidableEq, Repr

namespace PathFault

def number : PathFault → String
  | notFound => "2"
  | notADirectory => "20"
  | isADirectory => "21"

def description : PathFault → String
  | notFound => "No such file or directory"
  | notADirectory => "Not a directory"
  | isADirectory => "Is a directory"

def systemMessage (number description path : String) : String :=
  "[Errno " ++ number ++ "] " ++ description ++ ": " ++ Text.quoted path

def message (f : PathFault) (path : String) : String :=
  systemMessage f.number f.description path

end PathFault

namespace Contents

def deniedMessage (path : String) : String :=
  PathFault.systemMessage "13" "Permission denied" path

end Contents

namespace Tree

/-- What is at a location. The root is always a directory. -/
def at? (t : Tree) (l : Location) : Option Entry :=
  if l = [] then some .directory else (t.entries.find? (·.1 = l)).map (·.2)

def put (t : Tree) (l : Location) (e : Entry) : Tree :=
  ⟨(l, e) :: t.entries.filter (·.1 ≠ l)⟩

def remove (t : Tree) (l : Location) : Tree :=
  ⟨t.entries.filter (·.1 ≠ l)⟩

/-- Follows names from a location. A single dot stays, but only in a directory. -/
def walk (t : Tree) (here : Location) : List String → Except PathFault Location
  | [] => .ok here
  | name :: rest =>
      match t.at? here with
      | none => .error .notFound
      | some (.file _) => .error .notADirectory
      | some (.locked _) => .error .notADirectory
      | some .directory =>
          if name = "." then
            t.walk here rest
          else if name = ".." then
            t.walk here.dropLast rest
          else if (t.at? (here ++ [name])).isSome then
            t.walk (here ++ [name]) rest
          else
            .error .notFound

def origin (cwd : Location) (anchor : Anchor) : Location :=
  if anchor = .relative then cwd else []

def locate (t : Tree) (cwd : Location) (p : Path) : Except PathFault Location :=
  t.walk (origin cwd p.anchor) p.names

/-- The bytes of the file at a location, whoever may read it. -/
def fileAt (t : Tree) (l : Location) : Except PathFault (List UInt8) :=
  match t.at? l with
  | none => .error .notFound
  | some .directory => .error .isADirectory
  | some (.file bytes) => .ok bytes
  | some (.locked bytes) => .ok bytes

def contentsAt (t : Tree) (l : Location) : Except PathFault Contents :=
  match t.at? l with
  | none => .error .notFound
  | some .directory => .error .isADirectory
  | some (.file bytes) => .ok (.bytes bytes)
  | some (.locked _) => .ok .locked

def read (t : Tree) (cwd : Location) (p : Path) : Except PathFault (List UInt8) :=
  (t.locate cwd p).bind t.fileAt

def openFile (t : Tree) (cwd : Location) (p : Path) : Except PathFault Contents :=
  (t.locate cwd p).bind t.contentsAt

/-- The names in a text that is taken as a path as it stands. An empty name asks for a
directory, so that a separator at the end is not lost. -/
def rawNames (s : String) : List String :=
  (Text.pieces '/' s.toList).map fun name => if name = [] then "." else String.ofList name

def openRaw (t : Tree) (cwd : Location) (s : String) : Except PathFault Contents :=
  if s.isEmpty then
    .error .notFound
  else
    (t.walk (origin cwd (Path.anchorOf s.toList)) (rawNames s)).bind t.contentsAt

/-- The location at which a file can be written that a path leads to: its directory has
to be there, and it must not be a directory itself. -/
def writable (t : Tree) (cwd : Location) (p : Path) : Except PathFault Location :=
  match p.names.getLast? with
  | none => .error .isADirectory
  | some ".." =>
      match t.locate cwd p with
      | .error e => .error e
      | .ok _ => .error .isADirectory
  | some name =>
      match t.locate cwd p.parent with
      | .error e => .error e
      | .ok directory =>
          match t.at? directory with
          | none => .error .notFound
          | some (.file _) => .error .notADirectory
          | some (.locked _) => .error .notADirectory
          | some .directory =>
              if t.at? (directory ++ [name]) = some .directory then
                .error .isADirectory
              else
                .ok (directory ++ [name])

/-- Writes a file. A file that was locked stays so. -/
def write (t : Tree) (l : Location) (bytes : List UInt8) : Tree :=
  match t.at? l with
  | some (.locked _) => t.put l (.locked bytes)
  | _ => t.put l (.file bytes)

end Tree

end FileStyle
