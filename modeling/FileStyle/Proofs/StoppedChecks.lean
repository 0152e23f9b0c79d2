import FileStyle.Command
import FileStyle.Proofs.ExitCodes
import FileStyle.Proofs.SingleSection

/-!
# Checks that stop

A check of several files stops at the first one that has no style or cannot be read. It then
publishes nothing: no report is printed, none is saved, and the console is told the log of the
files before, the settings of this one if it has a style, and one line that says why the check
stops. The files behind it are not looked at. What becomes of the lines is the console's: it
may read a part of a name as a mark, and then the line does not show it or is refused.
-/

namespace FileStyle
namespace Command

variable {ε : Type} {t : Tree} {cwd : Location} {path line : String} {earlier : List String}

def toldStop (h : Host ε) (t : Tree) (cwd : Location) (o : CheckOptions)
    (earlier : List String) (path line : String) : List Display :=
  earlier.zipIdx.flatMap (toldFile h t cwd o) ++
    (toldSettings t cwd o path ++ [.markup line])

theorem course_check_eq {o : CheckOptions} (hformat : ∃ f ∈ ReportFormat.all, f.label = o.format)
    (hearlier : ∀ p ∈ earlier, Checkable t cwd p) (hstops : StopsAt t cwd path line)
    (h : Host ε) (rest : List String) :
    course (.check o (earlier ++ path :: rest)) h t cwd =
      Course.ofRun (telling h (toldStop h t cwd o earlier path line) (.error (.exit 2))) := by
  show Course.ofRun (runCheck h t cwd o (earlier ++ path :: rest)) = _
  rw [runCheck]
  split
  · next hnone => exact absurd hformat (not_exists_label_of_find? hnone)
  · rw [checkFiles_of_stopsAt hearlier hstops, telling_error_bind]
    rfl

/-- A check in a format that is known, of paths that can all be checked up to one at which it
stops. Whatever other paths follow, nothing is published but what the console writes for the
log and for the line that tells why it stops. It ends with exit code two just when the console
writes all of them, and else at the first that is refused. -/
theorem course_check_of_stopsAt {o : CheckOptions}
    (hformat : ∃ f ∈ ReportFormat.all, f.label = o.format)
    (hearlier : ∀ p ∈ earlier, Checkable t cwd p) (hstops : StopsAt t cwd path line)
    (h : Host ε) :
    ∃ c : Course ε,
      (∀ rest, course (.check o (earlier ++ path :: rest)) h t cwd = c) ∧
      c.Tells h (toldStop h t cwd o earlier path line) (.exit 2) ∧
      (c.ending = .exit 2 ↔ Writes h (toldStop h t cwd o earlier path line)) ∧
      c.stdout = "" ∧ c.saved = none ∧ c.treeAfter t = t := by
  have htells := tells_ofRun (h := h) (toldStop h t cwd o earlier path line) (.exit 2)
  refine ⟨_, course_check_eq hformat hearlier hstops h, htells, ?_⟩
  rcases prints_or_refused h (toldStop h t cwd o earlier path line) with
    ⟨texts, hp⟩ | ⟨before, d, after, texts, e, hds, hp, he⟩
  · rw [htells.printed texts hp]
    exact ⟨iff_of_true rfl (writes_iff_exists_prints.mpr ⟨texts, hp⟩), rfl, rfl, rfl⟩
  · rw [htells.refused before d after texts e hds hp he]
    have hd : d ∈ toldStop h t cwd o earlier path line := by
      rw [hds]
      simp
    exact ⟨iff_of_false nofun (not_writes_of_refused hd he), rfl, rfl, rfl⟩

def indentedText : String := "root = true\n[*]\nindent_size = 2\n"

def indentedStyle : Style :=
  { indentSize := some ⟨2, by decide⟩ }

theorem style_of_indentedText {path : Path} {name : String}
    (hfile : t.contents? [] ⟨.root, [".editorconfig"]⟩ =
      some (.bytes indentedText.toUTF8.toList))
    (htarget : t.canonical [] path = .ok ⟨.root, [name]⟩) :
    t.style [] path StyleFile.defaultName = .ok indentedStyle := by
  have hread : StyleFile.read ⟨.root, [".editorconfig"]⟩ indentedText.toUTF8.toList =
      .ok ⟨⟨.root, [".editorconfig"]⟩, ⟨true, [⟨"*", 2, [("indent_size", "2")]⟩]⟩⟩ := by
    decide +kernel
  have hstyle : Style.ofProperties [("indent_size", "2")] = .ok indentedStyle := by
    decide +kernel
  have hcandidates : Path.candidates ⟨.root, [name]⟩ StyleFile.defaultName =
      [] ++ ⟨.root, [".editorconfig"]⟩ :: [] := by
    rfl
  rw [Tree.style_of_root_section htarget hcandidates (by simp) hfile hread rfl rfl rfl, hstyle]
  rfl

/-- A file that can be checked and a directory, which has a style but cannot be read. An older
report is where the new one is to be saved. -/
def listedDirectory : Tree :=
  ⟨[([".editorconfig"], .file indentedText.toUTF8.toList), (["a.txt"], .file [9, 120]),
    (["d"], .directory), (["report.json"], .file [123, 125])]⟩

theorem style_listedDirectory {path : Path} {name : String}
    (htarget : listedDirectory.canonical [] path = .ok ⟨.root, [name]⟩) :
    listedDirectory.style [] path StyleFile.defaultName = .ok indentedStyle :=
  style_of_indentedText (by decide +kernel) htarget

/-- Only the settings of the two files are told, and why the second cannot be read. -/
theorem course_check_of_directory :
    course (.check { format := "json", output := "report.json", verbose := true }
        ["a.txt", "d", "missing"]) plainHost listedDirectory [] =
      ⟨{ stderr := "[dim]a.txt: indent_size=2[/dim]\n[dim]d: indent_size=2[/dim]\n" ++
          "[bold red]I/O error:[/bold red] d: [Errno 21] Is a directory: 'd'\n" }, .exit 2⟩ := by
  have hfile : listedDirectory.style [] (Path.ofText "a.txt") StyleFile.defaultName =
      .ok indentedStyle := by
    have htarget : listedDirectory.canonical [] (Path.ofText "a.txt") = .ok ⟨.root, ["a.txt"]⟩ := by
      decide +kernel
    exact style_listedDirectory htarget
  have hdirectory : listedDirectory.style [] (Path.ofText "d") StyleFile.defaultName =
      .ok indentedStyle := by
    have htarget : listedDirectory.canonical [] (Path.ofText "d") = .ok ⟨.root, ["d"]⟩ := by
      decide +kernel
    exact style_listedDirectory htarget
  have hbytes : listedDirectory.openRaw [] "a.txt" = .ok (.bytes [9, 120]) := by
    decide +kernel
  have hfault : listedDirectory.openRaw [] "d" = .error .isADirectory := by
    decide +kernel
  have hchecked : ∀ p ∈ ["a.txt"], Checkable listedDirectory [] p :=
    List.forall_mem_singleton.mpr ⟨⟨_, hfile⟩, _, hbytes⟩
  rcases course_check_of_stopsAt
      (o := { format := "json", output := "report.json", verbose := true })
      ⟨.json, by decide, rfl⟩ hchecked (.missing ⟨_, hdirectory⟩ hfault) plainHost with
    ⟨c, hc, htells, -⟩
  have htold : toldStop plainHost listedDirectory []
      { format := "json", output := "report.json", verbose := true } ["a.txt"] "d"
        ("[bold red]I/O error:[/bold red] " ++ "d" ++ ": " ++
          (faultText .isADirectory ++ Text.quoted "d")) =
      [.markup "[dim]a.txt: indent_size=2[/dim]", .markup "[dim]d: indent_size=2[/dim]",
        .markup "[bold red]I/O error:[/bold red] d: [Errno 21] Is a directory: 'd'"] := by
    rw [toldStop, List.zipIdx_singleton, List.flatMap_singleton, toldFile,
      toldSettings_of_style hfile, toldSettings_of_style hdirectory]
    decide +kernel
  rw [htold] at htells
  rw [show (["a.txt", "d", "missing"] : List String) = ["a.txt"] ++ "d" :: ["missing"] from rfl,
    hc, htells.printed _ (.cons rfl (.cons rfl (.cons rfl .nil)))]
  decide +kernel

def markedDirectory : Tree :=
  ⟨[([".editorconfig"], .file indentedText.toUTF8.toList), (["[id]"], .directory)]⟩

/-- On a terminal the line about the directory does not tell its name. The line about a path
that is not there is refused, since a part of the path closes what is not open. -/
theorem course_check_of_marks :
    StopsAt markedDirectory [] "[id]"
        "[bold red]I/O error:[/bold red] [id]: [Errno 21] Is a directory: '[id]'" ∧
      course (.check {} ["[id]"]) Terminal.host markedDirectory [] =
        ⟨{ stderr := "I/O error: : [Errno 21] Is a directory: ''\n" }, .exit 2⟩ ∧
      StopsAt markedDirectory [] "[/x]"
        ("[bold red]Config error:[/bold red] Failed to canonicalize given path [/x]: " ++
          "[Errno 2] No such file or directory: '['") ∧
      course (.check {} ["[/x]"]) Terminal.host markedDirectory [] =
        ⟨{}, .crash (.console (.notOpen "/x" 69))⟩ := by
  have htext : ∃ f ∈ ReportFormat.all, f.label = ({} : CheckOptions).format :=
    ⟨.text, by decide, rfl⟩
  have hmissing : markedDirectory.style [] (Path.ofText "[/x]") StyleFile.defaultName =
      .error (.unresolvable ⟨.relative, ["[", "x]"]⟩ .notFound "[") := by
    have htarget : markedDirectory.canonical [] (Path.ofText "[/x]") =
        .error (.unresolvable ⟨.relative, ["[", "x]"]⟩ .notFound "[") := by
      decide +kernel
    rw [Tree.style, Tree.properties, htarget]
    rfl
  have hstyled : markedDirectory.style [] (Path.ofText "[id]") StyleFile.defaultName =
      .ok indentedStyle := by
    have htarget : markedDirectory.canonical [] (Path.ofText "[id]") =
        .ok ⟨.root, ["[id]"]⟩ := by
      decide +kernel
    exact style_of_indentedText (by decide +kernel) htarget
  have hdirectory : StopsAt markedDirectory [] "[id]"
      "[bold red]I/O error:[/bold red] [id]: [Errno 21] Is a directory: '[id]'" := by
    have hopen : markedDirectory.openRaw [] "[id]" = .error .isADirectory := by
      decide +kernel
    exact .missing ⟨_, hstyled⟩ hopen
  have hnowhere : StopsAt markedDirectory [] "[/x]"
      ("[bold red]Config error:[/bold red] Failed to canonicalize given path [/x]: " ++
        "[Errno 2] No such file or directory: '['") :=
    .unstyled hmissing rfl
  have hnone : ∀ p ∈ ([] : List String), Checkable markedDirectory [] p := by simp
  refine ⟨hdirectory, ?_, hnowhere, ?_⟩
  · have hprint : Terminal.host.print
        (.markup "[bold red]I/O error:[/bold red] [id]: [Errno 21] Is a directory: '[id]'") =
          .ok "I/O error: : [Errno 21] Is a directory: ''\n" := by
      decide +kernel
    have hcourse := course_check_eq htext hnone hdirectory Terminal.host []
    rw [toldStop, toldSettings_of_style hstyled] at hcourse
    exact hcourse.trans (congrArg Course.ofRun (telling_of_prints (.cons hprint .nil) _))
  · have hrefused : Terminal.host.print
        (.markup ("[bold red]Config error:[/bold red] Failed to canonicalize given path [/x]: " ++
          "[Errno 2] No such file or directory: '['")) = .error (.notOpen "/x" 69) := by
      decide +kernel
    have hcourse := course_check_eq htext hnone hnowhere Terminal.host []
    rw [toldStop, toldSettings, hmissing] at hcourse
    exact hcourse.trans (congrArg Course.ofRun (telling_of_refused .nil hrefused [] _))

end Command
end FileStyle
