import FileStyle.Command

/-!
# The program

A command looks at the places that its paths pass through and at the style files beside
them, and at nothing else. The program reads these, runs the command on a tree that
holds just them, and publishes the outcome.
-/

namespace FileStyle

/-! ## What a command looks at -/

namespace Command

def passed (here : Location) : List String → List Location
  | [] => [here]
  | name :: rest =>
      if name = "." then passed here rest
      else if name = ".." then here :: passed here.dropLast rest
      else here :: passed (here ++ [name]) rest

def chain (l : Location) : List Location :=
  (List.range (l.length + 1)).map l.take

def passedByText (cwd : Location) (path : String) : List Location :=
  (passed (Tree.origin cwd (Path.anchorOf path.toList)) (Tree.rawNames path)).flatMap chain

def pathTexts : Command → List String
  | version => []
  | fix => []
  | check options paths => options.output :: paths
  | showStyle _ path => [path]

def reach (cwd : Location) (c : Command) : List Location :=
  ((c.pathTexts.flatMap (passedByText cwd)).flatMap fun l =>
    [l, l ++ [StyleFile.defaultName]]).eraseDups

end Command

/-! ## Input and output -/

namespace Program

def usage : String :=
  "Usage: " ++ programName ++ " [--version] (check PATHS... | show-config PATH | fix)"

def pathText (l : Location) : String :=
  "/" ++ Path.joined l

/-- What the file system has at a location. A directory cannot be read as a file, which
tells it apart. -/
def entryAt (l : Location) : IO (Option Entry) := do
  try
    let bytes ← IO.FS.readBinFile (pathText l)
    return some (.file bytes.toList)
  catch e =>
    match e with
    | .inappropriateType .. => return some .directory
    | .permissionDenied .. => return some (.locked [])
    | _ => return none

def snapshot (ls : List Location) : IO Tree := do
  let entries ← ls.filterMapM fun l => return (← entryAt l).map fun e => (l, e)
  return ⟨entries⟩

def publish (o : Command.Outcome) : IO UInt32 := do
  match o.saved with
  | some (l, text) => IO.FS.writeFile (pathText l) text
  | none => pure ()
  IO.print o.stdout
  IO.eprint o.stderr
  return UInt32.ofNat o.exit

end Program
end FileStyle

open FileStyle in
def main (args : List String) : IO UInt32 := do
  match Command.read args with
  | none =>
      IO.eprintln Program.usage
      return 2
  | some command =>
      let cwd := (Path.ofText (toString (← IO.currentDir))).names
      let tree ← Program.snapshot (command.reach cwd)
      match command.run tree cwd with
      | .error failure =>
          IO.eprintln failure.message
          return 1
      | .ok outcome => Program.publish outcome
