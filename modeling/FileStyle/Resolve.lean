import FileStyle.Encoding
import FileStyle.Glob.Pattern
import FileStyle.Style.Properties
import FileStyle.StyleFile
import FileStyle.Tree

/-!
# The style of a path

The style of a path comes from the style files in the directories above it, up to the
first that calls itself the root. Every section that is about the path contributes its
properties: the nearer file overrides the farther one, and within a file the later
section the earlier one.
-/

namespace FileStyle

structure StyleFile where
  path : Path
  sheet : StyleSheet
  deriving DecidableEq, Repr

namespace StyleFile

def directory (f : StyleFile) : Path :=
  f.path.parent

def defaultName : String := ".editorconfig"

end StyleFile

inductive ResolveError where
  | unresolvable (path : Path) (fault : PathFault) (part : String)
  | noSection (path : Path)
  | unreadable (path : Path)
  | undecodable (path : Path) (error : Utf8.DecodeError)
  | malformed (path : Path) (error : ParseError)
  | badGlob (error : GlobError)
  | badValue (error : StyleError)
  | outside (path directory : Path)
  deriving DecidableEq, Repr

namespace ResolveError

def message : ResolveError → String
  | unresolvable path fault part =>
      "Failed to canonicalize given path " ++ path.text ++ ": " ++ fault.message part
  | noSection path => "Failed to find matched config for " ++ path.text
  | unreadable path =>
      "Failed to open config file at " ++ path.text ++ ": " ++
        Contents.deniedMessage path.text
  | undecodable path error =>
      "Failed to open config file at " ++ path.text ++ ": " ++ error.message
  | malformed path error =>
      "Failed to parse " ++ path.text ++ ":" ++ Text.decimal error.line ++ ": " ++
        error.defect.message
  | badGlob error => error.message
  | badValue error => error.message
  | outside path directory =>
      Text.quoted path.text ++ " is not in the subpath of " ++
        Text.quoted directory.text ++
        " OR one path is relative and the other is absolute."

/-- Whether the error is the configuration's: one that its author can mend, and that a
command reports. Bounds of too many digits, descending character ranges and style files
beside the path are not foreseen. -/
def isForeseen : ResolveError → Bool
  | badGlob (.unmatchedBrace _) => true
  | badGlob _ => false
  | outside _ _ => false
  | _ => true

end ResolveError

namespace StyleFile

def read (path : Path) (bytes : List UInt8) : Except ResolveError StyleFile :=
  match Utf8.text bytes with
  | .error e => .error (.undecodable path e)
  | .ok text =>
      match StyleSheet.parse text with
      | .error e => .error (.malformed path e)
      | .ok sheet => .ok ⟨path, sheet⟩

def readContents (path : Path) : Contents → Except ResolveError StyleFile
  | .bytes bytes => read path bytes
  | .locked => .error (.unreadable path)

end StyleFile

namespace Tree

/-!
## Canonical paths

Names are followed one by one, each of which has to be there; double dots take back
the name before them. What was followed so far is kept as it would be written, since
that is how a missing name is reported.
-/

structure Trail where
  absolute : Bool
  ups : Nat
  names : List String

namespace Trail

def text (trail : Trail) : String :=
  (if trail.absolute then "/" else "") ++
    Path.joined (List.replicate trail.ups ".." ++ trail.names)

def location (trail : Trail) (cwd : Location) : Location :=
  if trail.absolute then trail.names
  else cwd.take (cwd.length - trail.ups) ++ trail.names

def back (trail : Trail) : Trail :=
  if trail.names ≠ [] then { trail with names := trail.names.dropLast }
  else if trail.absolute then trail
  else { trail with ups := trail.ups + 1 }

def forth (trail : Trail) (name : String) : Trail :=
  { trail with names := trail.names ++ [name] }

end Trail

def follow (t : Tree) (cwd : Location) (trail : Trail) :
    List String → Except (PathFault × String) Location
  | [] => .ok (trail.location cwd)
  | name :: rest =>
      if name = ".." then
        t.follow cwd trail.back rest
      else
        let next := trail.forth name
        match t.at? (trail.location cwd) with
        | none => .error (.notFound, next.text)
        | some (.file _) => .error (.notADirectory, next.text)
        | some (.locked _) => .error (.notADirectory, next.text)
        | some .directory =>
            if (t.at? (next.location cwd)).isSome then
              t.follow cwd next rest
            else
              .error (.notFound, next.text)

/-- The path from the root to what a path leads to. -/
def canonical (t : Tree) (cwd : Location) (p : Path) : Except ResolveError Path :=
  match t.follow cwd ⟨p.anchor ≠ .relative, 0, []⟩ p.names with
  | .ok l => .ok ⟨.root, l⟩
  | .error (fault, part) => .error (.unresolvable p fault part)

/-!
## Style files
-/

/-- The style files among the candidates, up to the first root. A candidate that is no
file is passed over. -/
def gatherStyleFiles (t : Tree) (cwd : Location) :
    List Path → Except ResolveError (List StyleFile)
  | [] => .ok []
  | candidate :: rest =>
      match t.openFile cwd candidate with
      | .error _ => t.gatherStyleFiles cwd rest
      | .ok contents => do
          let file ← StyleFile.readContents candidate contents
          if file.sheet.root then
            return [file]
          else
            return file :: (← t.gatherStyleFiles cwd rest)

def styleFiles (t : Tree) (cwd : Location) (path : Path) (fileName : String) :
    Except ResolveError (List StyleFile) :=
  t.gatherStyleFiles cwd (path.parents.map (·.append (Path.ofText fileName)))

end Tree

/-!
## Merging
-/

def applicable (path : String) : List Section → Except GlobError (List Section)
  | [] => .ok []
  | s :: rest => do
      let applies ← Glob.sectionMatches s.name path
      let others ← applicable path rest
      return if applies then s :: others else others

namespace StyleFile

def sectionsFor (f : StyleFile) (path : Path) : Except ResolveError (List Section) :=
  match path.below? f.directory with
  | none => .error (.outside path f.directory)
  | some names =>
      let relative : Path := ⟨.relative, names⟩
      (applicable relative.text f.sheet.sections).mapError .badGlob

/-- The sections of several files, farthest file first, given the files nearest first. -/
def allSectionsFor (path : Path) : List StyleFile → Except ResolveError (List Section)
  | [] => .ok []
  | f :: farther => do
      let before ← allSectionsFor path farther
      let own ← f.sectionsFor path
      return before ++ own

end StyleFile

namespace Properties

def ofSections (sections : List Section) : Properties :=
  sections.foldl (fun ps s => ps.putAll s.properties) []

end Properties

namespace Tree

def properties (t : Tree) (cwd : Location) (path : Path) (fileName : String) :
    Except ResolveError Properties := do
  let target ← t.canonical cwd path
  let files ← t.styleFiles cwd target fileName
  let sections ← StyleFile.allSectionsFor target files
  if sections.isEmpty then
    throw (.noSection path)
  else
    return Properties.ofSections sections

def style (t : Tree) (cwd : Location) (path : Path) (fileName : String) :
    Except ResolveError Style := do
  let ps ← t.properties cwd path fileName
  (Style.ofProperties ps).mapError .badValue

end Tree
end FileStyle
