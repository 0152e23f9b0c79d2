import FileStyle.Check
import FileStyle.Command.Arguments
import FileStyle.Resolve

/-!
# The course of a command

The program checks files, shows the style of a file, or tells its version. A command
runs on a file tree, in the directory in which the program was started, and leaves the
tree as it is but for one file that it may save. A run that cannot go on says so on the
console and ends with exit code two. The console may refuse to show a display; nothing
foresees that, and it ends the run where it happens.
-/

namespace FileStyle
namespace Command

/-- What no command foresees. -/
inductive Crash (ε : Type) where
  | resolve (error : ResolveError)
  | unwritable (path : Path) (fault : PathFault)
  | console (error : ε)
  deriving DecidableEq, Repr

inductive Ending (ε : Type) where
  | exit (code : Nat)
  | crash (reason : Crash ε)
  deriving DecidableEq, Repr

variable {ε α : Type}

/-! ## The console -/

def tell (h : Host ε) (d : Display) : Run (Ending ε) Unit :=
  match h.print d with
  | .ok text => ⟨{ stderr := text }, .ok ()⟩
  | .error e => .stop (.crash (.console e))

def tellIf (h : Host ε) (asked : Bool) (line : String) : Run (Ending ε) Unit :=
  if asked then tell h (.markup line) else pure ()

def tellAll (h : Host ε) : List Display → Run (Ending ε) Unit
  | [] => pure ()
  | d :: ds => do
      tell h d
      tellAll h ds

def refuse (h : Host ε) (line : String) : Run (Ending ε) α := do
  tell h (.markup line)
  .stop (.exit 2)

def invalidFormat (h : Host ε) (format : String) : Run (Ending ε) α :=
  refuse h ("[bold red]Invalid format:[/bold red] " ++ format)

/-! ## Checking files -/

def styleOf (h : Host ε) (t : Tree) (cwd : Location) (path : String) :
    Run (Ending ε) Style :=
  match t.style cwd (Path.ofText path) StyleFile.defaultName with
  | .ok style => pure style
  | .error e =>
      if e.isForeseen then
        refuse h ("[bold red]Config error:[/bold red] " ++ e.message)
      else
        .stop (.crash (.resolve e))

def bytesOf (h : Host ε) (t : Tree) (cwd : Location) (path : String) :
    Run (Ending ε) (List UInt8) :=
  let unreadable (message : String) : Run (Ending ε) (List UInt8) :=
    refuse h ("[bold red]I/O error:[/bold red] " ++ path ++ ": " ++ message)
  match t.openRaw cwd path with
  | .ok (.bytes bytes) => pure bytes
  | .ok .locked => unreadable (Contents.deniedMessage path)
  | .error fault => unreadable (fault.message path)

def settingText : Key × Value → String
  | (k, .flag b) => k.label ++ "=" ++ if b then "True" else "False"
  | (k, v) => k.label ++ "=" ++ v.text

def settingsLine (path : String) (s : Style) : String :=
  let settings := if s.isEmpty then "none" else ", ".intercalate (s.entries.map settingText)
  "[dim]" ++ path ++ ": " ++ settings ++ "[/dim]"

def durationLine (path : String) (milliseconds : Float) : String :=
  "[dim]" ++ path ++ ": checked in " ++ Binary64.fixedText 1 milliseconds ++ "ms[/dim]"

/-- How long the check of a file took, in milliseconds. The clock is read twice for each
file. -/
def elapsed (h : Host ε) (file : Nat) : Float :=
  (h.clock (2 * file + 1) - h.clock (2 * file)) * 1000

def checkFile (h : Host ε) (t : Tree) (cwd : Location) (o : CheckOptions) (file : Nat)
    (path : String) : Run (Ending ε) FileReport := do
  let style ← styleOf h t cwd path
  tellIf h (o.verbose || o.debug) (settingsLine path style)
  let bytes ← bytesOf h t cwd path
  tellIf h o.debug (durationLine path (elapsed h file))
  return ⟨path, style.check bytes, Binary64.hundredths (elapsed h file)⟩

def checkFiles (h : Host ε) (t : Tree) (cwd : Location) (o : CheckOptions) (file : Nat) :
    List String → Run (Ending ε) (List FileReport)
  | [] => pure []
  | path :: paths => do
      let report ← checkFile h t cwd o file path
      let reports ← checkFiles h t cwd o (file + 1) paths
      return report :: reports

def showReport (h : Host ε) (o : CheckOptions) (files : List FileReport) :
    ReportFormat → Run (Ending ε) Unit
  | .text => .print (Report.renderText files)
  | .terminal => tellAll h (Report.displays files (o.verbose || o.debug))
  | .json => .print (Report.renderJson files ++ "\n")
  | .sarif => .print (Report.renderSarif files ++ "\n")

/-- The text that a report is saved as. What is shown on the console has no text, and
JSON stands in for it. -/
def savedText (files : List FileReport) : ReportFormat → String
  | .text => Report.renderText files
  | .terminal => Report.renderJson files
  | .json => Report.renderJson files
  | .sarif => Report.renderSarif files

def saveReport (h : Host ε) (t : Tree) (cwd : Location) (o : CheckOptions)
    (text : String) : Run (Ending ε) Unit :=
  if o.output = "" then
    pure ()
  else
    match t.writable cwd (Path.ofText o.output) with
    | .error fault => .stop (.crash (.unwritable (Path.ofText o.output) fault))
    | .ok location => do
        Run.save location text
        tellIf h o.verbose ("[dim]Report written to " ++ o.output ++ "[/dim]")

def runCheck (h : Host ε) (t : Tree) (cwd : Location) (o : CheckOptions)
    (paths : List String) : Run (Ending ε) Unit :=
  match ReportFormat.all.find? (·.label = o.format) with
  | none => invalidFormat h o.format
  | some format => do
      let files ← checkFiles h t cwd o 0 paths
      showReport h o files format
      saveReport h t cwd o (savedText files format)

/-! ## Running a command -/

def runShowStyle (h : Host ε) (t : Tree) (cwd : Location) (format path : String) :
    Run (Ending ε) Unit :=
  match StyleFormat.all.find? (·.label = format) with
  | none => invalidFormat h format
  | some format => do
      let style ← styleOf h t cwd path
      Run.print (style.render format)

def start (h : Host ε) (t : Tree) (cwd : Location) : Command → Run (Ending ε) Unit
  | .version => .print (programName ++ " " ++ programVersion ++ "\n")
  | .check options paths => runCheck h t cwd options paths
  | .showStyle format path => runShowStyle h t cwd format path
  | .fix => refuse h "[bold red]Error:[/bold red] fix is not implemented yet"

structure Course (ε : Type) extends Output where
  ending : Ending ε
  deriving DecidableEq, Repr

def Course.ofRun (r : Run (Ending ε) Unit) : Course ε where
  toOutput := r.output
  ending :=
    match r.result with
    | .ok () => .exit 0
    | .error ending => ending

def course (c : Command) (h : Host ε) (t : Tree) (cwd : Location) : Course ε :=
  .ofRun (c.start h t cwd)

/-! ## The tree afterwards -/

def savedBytes (text : String) : List UInt8 :=
  text.toList.flatMap Utf8.encode

end Command

def Output.treeAfter (o : Output) (t : Tree) : Tree :=
  match o.saved with
  | none => t
  | some (location, text) => t.write location (Command.savedBytes text)

end FileStyle
