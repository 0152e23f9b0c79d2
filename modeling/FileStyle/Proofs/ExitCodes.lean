import FileStyle.Proofs.FileChecks
import FileStyle.Proofs.ForeseenErrors

/-!
# Exit codes

A command that shows a style or checks files ends with exit code zero if all went well and
with two if not, whatever the style files above the paths hold, as long as their section
names are sound; only the console can end it otherwise. A name that is not sound stops the
command by a failure that is not foreseen.
-/

namespace FileStyle
namespace Command

variable {ε α β : Type} {h : Host ε} {t : Tree} {cwd : Location} {path line : String}
  {paths : List String} {told : Display → Prop} {well : Prop}

/-! ## Ends -/

/-- The command ends with exit code zero if all is well and with two if not, unless the
console refuses something that it may be told. -/
structure EndsWhen (h : Host ε) (c : Course ε) (told : Display → Prop) (well : Prop) :
    Prop where
  exits : c.ending = .exit 0 ∨ c.ending = .exit 2 ∨
    ∃ d e, told d ∧ h.print d = .error e ∧ c.ending = .crash (.console e)
  zero : c.ending = .exit 0 → well
  two : c.ending = .exit 2 → ¬ well

theorem EndsWhen.of_tells {c : Course ε} {ds : List Display} (hc : c.Tells h ds (.exit 2))
    (htold : ∀ d ∈ ds, told d) (hill : ¬ well) : EndsWhen h c told well := by
  rcases prints_or_refused h ds with ⟨texts, hp⟩ | ⟨before, d, after, texts, e, rfl, hp, he⟩
  · rw [hc.printed texts hp]
    exact ⟨.inr (.inl rfl), nofun, fun _ => hill⟩
  · rw [hc.refused before d after texts e rfl hp he]
    exact ⟨.inr (.inr ⟨d, e, htold d (by simp), he, rfl⟩), nofun, nofun⟩

def GoesOn (h : Host ε) (told : Display → Prop) (r : Run (Ending ε) α) : Prop :=
  (∃ a, r.result = .ok a) ∨
    ∃ d e, told d ∧ h.print d = .error e ∧ r.result = .error (.crash (.console e))

theorem GoesOn.bind {r : Run (Ending ε) α} {next : α → Run (Ending ε) β}
    (hr : GoesOn h told r) (hnext : ∀ a, r.result = .ok a → GoesOn h told (next a)) :
    GoesOn h told (r >>= next) := by
  rcases hr with ⟨a, ha⟩ | ⟨d, e, hd, he, hresult⟩
  · rw [Run.bind_of_ok ha]
    exact hnext a ha
  · rw [Run.bind_of_error hresult]
    exact .inr ⟨d, e, hd, he, rfl⟩

theorem goesOn_telling {ds : List Display} (htold : ∀ d ∈ ds, told d) (a : α) :
    GoesOn h told (telling h ds (.ok a)) := by
  rcases telling_cases h ds (.ok a) with ⟨-, _, hall⟩ | ⟨d, hd, e, _, he, hstop⟩
  · exact .inl ⟨a, by rw [hall]⟩
  · exact .inr ⟨d, e, htold d hd, he, by rw [hstop]⟩

theorem EndsWhen.of_goesOn {r : Run (Ending ε) Unit} (hr : GoesOn h told r) (hwell : well) :
    EndsWhen h (Course.ofRun r) told well := by
  rcases hr with ⟨_, ha⟩ | ⟨d, e, hd, he, hresult⟩
  · have hending : (Course.ofRun r).ending = .exit 0 := by rw [Course.ofRun, ha]
    refine ⟨.inl hending, fun _ => hwell, ?_⟩
    intro htwo
    rw [hending] at htwo
    cases htwo
  · have hending : (Course.ofRun r).ending = .crash (.console e) := by
      rw [Course.ofRun, hresult]
    refine ⟨.inr (.inr ⟨d, e, hd, he, hending⟩), fun _ => hwell, ?_⟩
    intro htwo
    rw [hending] at htwo
    cases htwo

/-! ## What may be told -/

def formatLine (format : String) : Display :=
  .markup ("[bold red]Invalid format:[/bold red] " ++ format)

inductive ShowTells (t : Tree) (cwd : Location) (format path : String) : Display → Prop where
  | format (hunknown : ¬ ∃ f ∈ StyleFormat.all, f.label = format) :
      ShowTells t cwd format path (formatLine format)
  | error {e : ResolveError}
      (hstyle : t.style cwd (Path.ofText path) StyleFile.defaultName = .error e) :
      ShowTells t cwd format path
        (.markup ("[bold red]Config error:[/bold red] " ++ e.message))

inductive CheckTells (h : Host ε) (t : Tree) (cwd : Location) (o : CheckOptions)
    (paths : List String) : Display → Prop where
  | format (hunknown : ¬ ∃ f ∈ ReportFormat.all, f.label = o.format) :
      CheckTells h t cwd o paths (formatLine o.format)
  | file {file : String × Nat} {d : Display} (hfile : file ∈ paths.zipIdx)
      (hd : d ∈ toldFile h t cwd o file) : CheckTells h t cwd o paths d
  | stop {path line : String} (hpath : path ∈ paths) (hstops : StopsAt t cwd path line) :
      CheckTells h t cwd o paths (.markup line)
  | report {files : List FileReport} {d : Display}
      (hfiles : List.Forall₂ (Reports h t cwd) paths.zipIdx files)
      (hformat : o.format = ReportFormat.terminal.label)
      (hd : d ∈ Report.displays files (o.verbose || o.debug)) : CheckTells h t cwd o paths d

theorem ends_of_invalidFormat {format : String} (htold : told (formatLine format))
    (hill : ¬ well) : EndsWhen h (Course.ofRun (invalidFormat h format)) told well := by
  rw [invalidFormat, refuse_eq]
  exact .of_tells (tells_ofRun _ _) (List.forall_mem_singleton.mpr htold) hill

/-! ## Paths -/

def SoundAbove (t : Tree) (cwd : Location) (path : String) : Prop :=
  t.SoundAbove cwd (Path.ofText path) StyleFile.defaultName

theorem ofText_defaultName :
    Path.ofText StyleFile.defaultName = ⟨.relative, [StyleFile.defaultName]⟩ := by
  decide

theorem foreseen_of_soundAbove {e : ResolveError} (hsound : SoundAbove t cwd path)
    (hstyle : t.style cwd (Path.ofText path) StyleFile.defaultName = .error e) :
    e.isForeseen = true :=
  Tree.foreseen_of_soundAbove ofText_defaultName hsound hstyle

theorem StopsAt.not_checkable (hstops : StopsAt t cwd path line) : ¬ Checkable t cwd path := by
  rintro ⟨⟨style, hstyle⟩, bytes, hopen⟩
  cases hstops with
  | unstyled herror _ =>
      rw [hstyle] at herror
      cases herror
  | missing _ herror =>
      rw [hopen] at herror
      cases herror
  | locked _ herror =>
      rw [hopen] at herror
      cases herror

theorem checkable_or_stopsAt (hsound : SoundAbove t cwd path) :
    Checkable t cwd path ∨ ∃ line, StopsAt t cwd path line := by
  cases hstyle : t.style cwd (Path.ofText path) StyleFile.defaultName with
  | error e => exact .inr ⟨_, .unstyled hstyle (foreseen_of_soundAbove hsound hstyle)⟩
  | ok style =>
      cases hopen : t.openRaw cwd path with
      | error fault => exact .inr ⟨_, .missing ⟨style, hstyle⟩ hopen⟩
      | ok contents =>
          cases contents with
          | bytes bytes => exact .inl ⟨⟨style, hstyle⟩, bytes, hopen⟩
          | locked => exact .inr ⟨_, .locked ⟨style, hstyle⟩ hopen⟩

theorem checkable_or_exists_stopsAt (hsound : ∀ path ∈ paths, SoundAbove t cwd path) :
    (∀ path ∈ paths, Checkable t cwd path) ∨
      ∃ earlier path rest line, paths = earlier ++ path :: rest ∧
        (∀ p ∈ earlier, Checkable t cwd p) ∧ StopsAt t cwd path line := by
  induction paths with
  | nil => exact .inl (by simp)
  | cons path paths ih =>
      have hall := List.forall_mem_cons.mp hsound
      rcases checkable_or_stopsAt hall.left with hfirst | ⟨line, hstops⟩
      · rcases ih hall.right with hrest | ⟨earlier, path', rest, line, rfl, hearlier, hstops⟩
        · exact .inl (List.forall_mem_cons.mpr ⟨hfirst, hrest⟩)
        · exact .inr ⟨path :: earlier, path', rest, line, rfl,
            List.forall_mem_cons.mpr ⟨hfirst, hearlier⟩, hstops⟩
      · exact .inr ⟨[], path, paths, line, rfl, by simp, hstops⟩

/-! ## Showing a style -/

theorem course_showStyle_ends (hsound : SoundAbove t cwd path) (h : Host ε) (format : String) :
    EndsWhen h (course (.showStyle format path) h t cwd) (ShowTells t cwd format path)
      ((∃ f ∈ StyleFormat.all, f.label = format) ∧ Styled t cwd path) := by
  show EndsWhen h (Course.ofRun (runShowStyle h t cwd format path)) _ _
  unfold runShowStyle
  split
  · next hnone =>
      have hunknown := not_exists_label_of_find? hnone
      exact ends_of_invalidFormat (.format hunknown) fun hwell => hunknown hwell.left
  · next f hfind =>
      have hformat : ∃ f ∈ StyleFormat.all, f.label = format := exists_label_of_find? hfind
      cases hstyle : t.style cwd (Path.ofText path) StyleFile.defaultName with
      | error e =>
          rw [styleOf_of_foreseen hstyle (foreseen_of_soundAbove hsound hstyle),
            telling_error_bind]
          refine .of_tells (tells_ofRun _ _) (List.forall_mem_singleton.mpr (.error hstyle)) ?_
          rintro ⟨-, style, hstyled⟩
          rw [hstyle] at hstyled
          cases hstyled
      | ok style =>
          have hstyleOf : styleOf h t cwd path = pure style := by rw [styleOf, hstyle]
          rw [hstyleOf, Run.pure_bind]
          exact .of_goesOn (.inl ⟨(), rfl⟩) ⟨hformat, style, hstyle⟩

/-! ## Checking files -/

theorem goesOn_showReport {o : CheckOptions} {files : List FileReport} {format : ReportFormat}
    (hformat : format.label = o.format)
    (hfiles : List.Forall₂ (Reports h t cwd) paths.zipIdx files) :
    GoesOn h (CheckTells h t cwd o paths) (showReport h o files format) := by
  cases format with
  | text => exact .inl ⟨(), rfl⟩
  | terminal =>
      rw [showReport, tellAll_eq]
      exact goesOn_telling (fun d hd => .report hfiles hformat.symm hd) ()
  | json => exact .inl ⟨(), rfl⟩
  | sarif => exact .inl ⟨(), rfl⟩

theorem checkTells_of_stopsAt {o : CheckOptions} (earlier rest : List String)
    (hstops : StopsAt t cwd path line) :
    ∀ d ∈ earlier.zipIdx.flatMap (toldFile h t cwd o) ++
        (toldSettings t cwd o path ++ [.markup line]),
      CheckTells h t cwd o (earlier ++ path :: rest) d := by
  have hsplit : (earlier ++ path :: rest).zipIdx =
      earlier.zipIdx ++ (path, 0 + earlier.length) :: rest.zipIdx (0 + earlier.length + 1) := by
    rw [List.zipIdx_append, List.zipIdx_cons]
  intro d hd
  rcases List.mem_append.mp hd with hd | hd
  · rcases List.mem_flatMap.mp hd with ⟨file, hfile, hd⟩
    exact .file (by rw [hsplit]; exact List.mem_append_left _ hfile) hd
  · rcases List.mem_append.mp hd with hd | hd
    · have htold : d ∈ toldFile h t cwd o (path, 0 + earlier.length) := by
        rw [toldFile]
        exact List.mem_append_left _ hd
      exact .file (by rw [hsplit]; exact List.mem_append_right _ List.mem_cons_self) htold
    · rw [List.mem_singleton.mp hd]
      exact .stop (by simp) hstops

theorem course_check_ends (hsound : ∀ path ∈ paths, SoundAbove t cwd path) (h : Host ε)
    {o : CheckOptions} (houtput : o.output = "") :
    EndsWhen h (course (.check o paths) h t cwd) (CheckTells h t cwd o paths)
      ((∃ f ∈ ReportFormat.all, f.label = o.format) ∧
        ∀ path ∈ paths, Checkable t cwd path) := by
  show EndsWhen h (Course.ofRun (runCheck h t cwd o paths)) _ _
  unfold runCheck
  split
  · next hnone =>
      have hunknown := not_exists_label_of_find? hnone
      exact ends_of_invalidFormat (.format hunknown) fun hwell => hunknown hwell.left
  · next f hfind =>
      have hformat : ∃ f ∈ ReportFormat.all, f.label = o.format := exists_label_of_find? hfind
      rcases checkable_or_exists_stopsAt hsound with hall |
        ⟨earlier, path, rest, line, rfl, hearlier, hstops⟩
      · rcases exists_reports_of_all hall h 0 with ⟨files, hfiles⟩
        refine .of_goesOn ?_ ⟨hformat, hall⟩
        rw [checkFiles_of_reports hfiles]
        have htold : ∀ d ∈ paths.zipIdx.flatMap (toldFile h t cwd o),
            CheckTells h t cwd o paths d := by
          intro d hd
          rcases List.mem_flatMap.mp hd with ⟨file, hfile, hd⟩
          exact .file hfile hd
        refine (goesOn_telling htold files).bind fun files' hfiles' => ?_
        rw [eq_of_telling hfiles']
        refine (goesOn_showReport (label_of_find? hfind) hfiles).bind fun _ _ => ?_
        rw [saveReport, if_pos houtput]
        exact .inl ⟨(), rfl⟩
      · rw [checkFiles_of_stopsAt hearlier hstops, telling_error_bind]
        refine .of_tells (tells_ofRun _ _) ?_ ?_
        · exact checkTells_of_stopsAt earlier rest hstops
        · rintro ⟨-, hall⟩
          exact hstops.not_checkable (hall path (by simp))

/-! ## Ends of commands -/

/-- Whatever the style files above some paths hold, if their section names are sound: each
of the paths has a style or a foreseen error, its style can be shown, and the paths can be
checked. Only a console that refuses what it is told ends a run otherwise. -/
theorem ends_of_soundAbove (hsound : ∀ path ∈ paths, SoundAbove t cwd path) :
    (∀ path ∈ paths,
      (Styled t cwd path ∨
        ∃ e, t.style cwd (Path.ofText path) StyleFile.defaultName = .error e ∧
          e.isForeseen = true) ∧
      ∀ (ε : Type) (h : Host ε) (format : String),
        EndsWhen h (course (.showStyle format path) h t cwd) (ShowTells t cwd format path)
          ((∃ f ∈ StyleFormat.all, f.label = format) ∧ Styled t cwd path)) ∧
    ∀ (ε : Type) (h : Host ε) (o : CheckOptions), o.output = "" →
      EndsWhen h (course (.check o paths) h t cwd) (CheckTells h t cwd o paths)
        ((∃ f ∈ ReportFormat.all, f.label = o.format) ∧
          ∀ path ∈ paths, Checkable t cwd path) := by
  constructor
  · intro path hpath
    refine ⟨?_, fun ε h => course_showStyle_ends (hsound path hpath) h⟩
    cases hstyle : t.style cwd (Path.ofText path) StyleFile.defaultName with
    | ok style => exact .inl ⟨style, hstyle⟩
    | error e => exact .inr ⟨e, rfl, foreseen_of_soundAbove (hsound path hpath) hstyle⟩
  · intro ε h o houtput
    exact course_check_ends hsound h houtput

def nestedSheet : StyleFile :=
  ⟨⟨.root, ["p", ".editorconfig"]⟩,
    ⟨false, [⟨"[a-z].\x7bpy,\x7b1..2\x7d\x7d", 1, [("tab_width", "2")]⟩]⟩⟩

def nestedTree : Tree :=
  ⟨[(["p"], .directory), (["p", "a.py"], .file []),
    (["p", ".editorconfig"],
      .file "[[a-z].\x7bpy,\x7b1..2\x7d\x7d]\ntab_width=2".toUTF8.toList)]⟩

/-- A console that refuses nothing, and a clock that stands still. -/
def plainHost : Host Empty where
  print d :=
    match d with
    | .markup text => .ok (text ++ "\n")
    | _ => .ok "\n"
  clock _ := 0

/-- The style of the file can be shown. Checking it together with a path that is not there
ends with exit code two. -/
theorem ends_of_soundAbove_of_nested_sheet :
    (∀ path ∈ ["/p/a.py", "/q"], SoundAbove nestedTree [] path) ∧
      (course (.showStyle "json" "/p/a.py") plainHost nestedTree []).ending = .exit 0 ∧
      (course (.check {} ["/p/a.py", "/q"]) plainHost nestedTree []).ending = .exit 2 := by
  have htarget : nestedTree.canonical [] (Path.ofText "/p/a.py") =
      .ok ⟨.root, ["p", "a.py"]⟩ := by
    decide +kernel
  have hmissing : nestedTree.canonical [] (Path.ofText "/q") =
      .error (.unresolvable ⟨.root, ["q"]⟩ .notFound "/q") := by
    decide +kernel
  have hfiles : nestedTree.styleFiles [] ⟨.root, ["p", "a.py"]⟩ StyleFile.defaultName =
      .ok [nestedSheet] := by
    decide +kernel
  have hsections : StyleFile.allSectionsFor ⟨.root, ["p", "a.py"]⟩ [nestedSheet] =
      .ok nestedSheet.sheet.sections := by
    cbv
  have hnames := StyleFile.exists_ofName_of_allSectionsFor hsections
  have hsound : ∀ path ∈ ["/p/a.py", "/q"], SoundAbove nestedTree [] path := by
    refine List.forall_mem_cons.mpr ⟨?_, List.forall_mem_singleton.mpr ?_⟩
    · intro target files hcanonical hstyleFiles f hf s hs
      have hline : '\n' ∉ s.name.toList := Tree.line_of_mem_styleFiles hstyleFiles hf hs
      rw [htarget] at hcanonical
      cases hcanonical
      rw [hfiles] at hstyleFiles
      cases hstyleFiles
      exact ((Glob.Matcher.ofName_reads_iff hline).mp (hnames f hf s hs)).right
    · intro target files hcanonical
      rw [hmissing] at hcanonical
      cases hcanonical
  have hproperties : nestedTree.properties [] (Path.ofText "/p/a.py") StyleFile.defaultName =
      .ok [("tab_width", "2")] :=
    bind_eq_ok_iff.mpr ⟨_, htarget, bind_eq_ok_iff.mpr ⟨_, hfiles,
      bind_eq_ok_iff.mpr ⟨_, hsections, rfl⟩⟩⟩
  have hstyle : Styled nestedTree [] "/p/a.py" := by
    refine ⟨{ tabWidth := some ⟨2, by decide⟩ }, bind_eq_ok_iff.mpr ⟨_, hproperties, ?_⟩⟩
    decide +kernel
  rcases ends_of_soundAbove hsound with ⟨hshow, hcheck⟩
  refine ⟨hsound, ?_, ?_⟩
  · have hends := (hshow "/p/a.py" List.mem_cons_self).right Empty plainHost "json"
    rcases hends.exits with hzero | htwo | ⟨_, e, _⟩
    · exact hzero
    · exact absurd ⟨⟨.json, by decide, rfl⟩, hstyle⟩ (hends.two htwo)
    · exact e.elim
  · have hends := hcheck Empty plainHost {} rfl
    rcases hends.exits with hzero | htwo | ⟨_, e, _⟩
    · rcases ((hends.zero hzero).right "/q" (by simp)).left with ⟨style, hq⟩
      rw [Tree.style, Tree.properties, hmissing] at hq
      cases hq
    · exact htwo
    · exact e.elim

def downwardSheet : StyleFile :=
  ⟨⟨.root, [".editorconfig"]⟩, ⟨true, [⟨"[z-a]", 2, [("indent_size", "2")]⟩]⟩⟩

def downwardTree : Tree :=
  ⟨[([".editorconfig"], .file "root = true\n[[z-a]]\nindent_size = 2\n".toUTF8.toList),
    (["a.txt"], .file [])]⟩

/-- The error is not foreseen, and no command ends by itself, whatever the console does. -/
theorem course_of_downward_sheet :
    downwardTree.style [] (Path.ofText "a.txt") StyleFile.defaultName =
        .error (.badGlob (.descendingRange 'z' 'a')) ∧
      ResolveError.isForeseen (.badGlob (.descendingRange 'z' 'a')) = false ∧
      ∀ (ε : Type) (h : Host ε),
        (course (.showStyle "ini" "a.txt") h downwardTree []).ending =
          .crash (.resolve (.badGlob (.descendingRange 'z' 'a'))) ∧
        (course (.check {} ["a.txt"]) h downwardTree []).ending =
          .crash (.resolve (.badGlob (.descendingRange 'z' 'a'))) := by
  have htarget : downwardTree.canonical [] (Path.ofText "a.txt") = .ok ⟨.root, ["a.txt"]⟩ := by
    decide +kernel
  have hfiles : downwardTree.styleFiles [] ⟨.root, ["a.txt"]⟩ StyleFile.defaultName =
      .ok [downwardSheet] := by
    decide +kernel
  have hsections : StyleFile.allSectionsFor ⟨.root, ["a.txt"]⟩ [downwardSheet] =
      .error (.badGlob (.descendingRange 'z' 'a')) := by
    cbv
  have hstyle : downwardTree.style [] (Path.ofText "a.txt") StyleFile.defaultName =
      .error (.badGlob (.descendingRange 'z' 'a')) :=
    Tree.style_of_allSectionsFor_error htarget hfiles hsections
  refine ⟨hstyle, rfl, fun ε h => ?_⟩
  have hstop : styleOf h downwardTree [] "a.txt" =
      .stop (.crash (.resolve (.badGlob (.descendingRange 'z' 'a')))) := by
    rw [styleOf, hstyle]
    rfl
  constructor
  · show (Course.ofRun (runShowStyle h downwardTree [] "ini" "a.txt")).ending = _
    have hini : StyleFormat.all.find? (·.label = "ini") = some .ini := by decide
    rw [runShowStyle, hini]
    dsimp only
    rw [hstop, Run.stop_bind]
    rfl
  · show (Course.ofRun (runCheck h downwardTree [] {} ["a.txt"])).ending = _
    rw [runCheck, find?_label .text]
    dsimp only
    rw [checkFiles, checkFile, hstop, Run.stop_bind, Run.stop_bind, Run.stop_bind]
    rfl

end Command
end FileStyle
