import FileStyle.Command.Course
import Mathlib.Data.List.Forall2

/-!
# Checks of files

A file is checked or it stops the run. For both there is one equation, which says what the
console is told and what comes of it; the equations for several files follow by induction on
the files before the one that stops the run.
-/

namespace FileStyle

/-!
## What the console is told

A check tells the console what it does: the settings of a file and the time that its check
took, if it is asked for them, and why it cannot go on. The console writes what it is told
until it refuses a display, which ends the run. So each part of a check is the list of what
it tells and what it comes to then.
-/

/-! ### Parts of a run -/

namespace Output

@[simp] theorem empty_append (o : Output) : ({} : Output) ++ o = o := by
  show Output.mk ("" ++ o.stdout) ("" ++ o.stderr) (o.saved.or none) = o
  rw [String.empty_append, String.empty_append, Option.or_none]

@[simp] theorem append_empty (o : Output) : o ++ ({} : Output) = o := by
  show Output.mk (o.stdout ++ "") (o.stderr ++ "") (none.or o.saved) = o
  rw [String.append_empty, String.append_empty, Option.none_or]

@[simp] theorem stdout_append (o o' : Output) : (o ++ o').stdout = o.stdout ++ o'.stdout := rfl

@[simp] theorem saved_append (o o' : Output) : (o ++ o').saved = o'.saved.or o.saved := rfl

theorem append_assoc (o o' o'' : Output) : o ++ o' ++ o'' = o ++ (o' ++ o'') := by
  show Output.mk _ _ _ = Output.mk _ _ _
  rw [Output.mk.injEq]
  exact ⟨String.append_assoc, String.append_assoc, Option.or_assoc.symm⟩

end Output

namespace Run

variable {σ α β : Type}

theorem bind_of_ok {r : Run σ α} {a : α} (h : r.result = .ok a) (next : α → Run σ β) :
    r >>= next = ⟨r.output ++ (next a).output, (next a).result⟩ := by
  show r.bind next = _
  rw [Run.bind, h]

theorem bind_of_error {r : Run σ α} {reason : σ} (h : r.result = .error reason)
    (next : α → Run σ β) : r >>= next = ⟨r.output, .error reason⟩ := by
  show r.bind next = _
  rw [Run.bind, h]

theorem pure_bind (a : α) (next : α → Run σ β) : (pure a : Run σ α) >>= next = next a := by
  rw [bind_of_ok rfl]
  show Run.mk (({} : Output) ++ (next a).output) _ = _
  rw [Output.empty_append]

theorem stop_bind (reason : σ) (next : α → Run σ β) :
    (stop reason : Run σ α) >>= next = stop reason :=
  bind_of_error rfl next

theorem bind_assoc {γ : Type} (r : Run σ α) (next : α → Run σ β) (last : β → Run σ γ) :
    r >>= next >>= last = r >>= fun a => next a >>= last := by
  cases hr : r.result with
  | error reason => rw [bind_of_error hr, bind_of_error hr, bind_of_error rfl]
  | ok a =>
      rw [bind_of_ok hr, bind_of_ok hr]
      cases ha : (next a).result with
      | error reason => rw [bind_of_error rfl, bind_of_error ha]
      | ok b => rw [bind_of_ok rfl, bind_of_ok ha, Output.append_assoc]

end Run

namespace Command

variable {ε α β : Type} {h : Host ε} {t : Tree} {cwd : Location} {o : CheckOptions}
  {path : String}

/-! ### Telling -/

def Prints (h : Host ε) (ds : List Display) (texts : List String) : Prop :=
  List.Forall₂ (fun d text => h.print d = .ok text) ds texts

def Writes (h : Host ε) (ds : List Display) : Prop :=
  ∀ d ∈ ds, ∃ text, h.print d = .ok text

def telling (h : Host ε) (ds : List Display) (result : Except (Ending ε) α) :
    Run (Ending ε) α := do
  tellAll h ds
  ⟨{}, result⟩

theorem tellAll_append (ds more : List Display) :
    tellAll h (ds ++ more) = tellAll h ds >>= fun _ => tellAll h more := by
  induction ds with
  | nil => exact (Run.pure_bind () fun _ => tellAll h more).symm
  | cons d ds ih =>
      rw [List.cons_append, tellAll, tellAll, ih]
      exact (Run.bind_assoc _ _ _).symm

theorem tellAll_eq (ds : List Display) : tellAll h ds = telling h ds (.ok ()) := by
  have hall := tellAll_append (h := h) ds []
  rw [List.append_nil] at hall
  exact hall

theorem telling_nil (result : Except (Ending ε) α) : telling h [] result = ⟨{}, result⟩ :=
  Run.pure_bind () _

theorem telling_cons (d : Display) (ds : List Display) (result : Except (Ending ε) α) :
    telling h (d :: ds) result = tell h d >>= fun _ => telling h ds result :=
  Run.bind_assoc _ _ _

theorem telling_error_bind (ds : List Display) (ending : Ending ε)
    (next : α → Run (Ending ε) β) :
    telling h ds (.error ending) >>= next = telling h ds (.error ending) := by
  rw [telling, Run.bind_assoc]
  rfl

theorem telling_ok_bind (ds : List Display) (a : α) (next : α → Run (Ending ε) β) :
    telling h ds (.ok a) >>= next = tellAll h ds >>= fun _ => next a := by
  rw [telling, Run.bind_assoc]
  exact congrArg _ (funext fun _ => Run.pure_bind a next)

theorem telling_ok_bind_telling {a : α} (next : α → Run (Ending ε) β) {more : List Display}
    {result : Except (Ending ε) β} (hnext : next a = telling h more result)
    (ds : List Display) : telling h ds (.ok a) >>= next = telling h (ds ++ more) result := by
  rw [telling_ok_bind, hnext, telling, telling, tellAll_append, Run.bind_assoc]

theorem telling_ok_map (ds : List Display) (a : α) (f : α → β) :
    (do
      let x ← telling h ds (.ok a)
      return f x) = telling h ds (.ok (f a)) := by
  rw [telling_ok_bind_telling (fun x => pure (f x)) (telling_nil _).symm, List.append_nil]

theorem telling_of_prints {ds : List Display} {texts : List String} (hp : Prints h ds texts)
    (result : Except (Ending ε) α) :
    telling h ds result = ⟨{ stderr := String.join texts }, result⟩ := by
  induction hp with
  | nil => exact telling_nil result
  | @cons d text ds texts htext _ ih =>
      have htold : tell h d = ⟨{ stderr := text }, .ok ()⟩ := by rw [tell, htext]
      rw [telling_cons, htold, Run.bind_of_ok rfl, ih, String.join_cons]
      rfl

theorem telling_of_refused {before : List Display} {d : Display} {texts : List String} {e : ε}
    (hp : Prints h before texts) (hrefused : h.print d = .error e) (after : List Display)
    (result : Except (Ending ε) α) :
    telling h (before ++ d :: after) result =
      ⟨{ stderr := String.join texts }, .error (.crash (.console e))⟩ := by
  have hend : telling h (d :: after) result = ⟨{}, .error (.crash (.console e))⟩ := by
    rw [telling_cons, tell, hrefused]
    exact Run.stop_bind _ _
  rw [← telling_ok_bind_telling (a := ()) (fun _ => telling h (d :: after) result) rfl before,
    telling_of_prints hp, Run.bind_of_ok rfl, hend, Output.append_empty]

theorem eq_of_telling {ds : List Display} {a b : α}
    (hresult : (telling h ds (.ok a)).result = .ok b) : b = a := by
  induction ds with
  | nil =>
      rw [telling_nil] at hresult
      exact (Except.ok.inj hresult).symm
  | cons d ds ih =>
      rw [telling_cons] at hresult
      cases htold : (tell h d).result with
      | error ending =>
          rw [Run.bind_of_error htold] at hresult
          cases hresult
      | ok _ =>
          rw [Run.bind_of_ok htold] at hresult
          exact ih hresult

theorem prints_or_refused (h : Host ε) (ds : List Display) :
    (∃ texts, Prints h ds texts) ∨
      ∃ before d after texts e, ds = before ++ d :: after ∧ Prints h before texts ∧
        h.print d = .error e := by
  induction ds with
  | nil => exact .inl ⟨[], .nil⟩
  | cons d ds ih =>
      cases hd : h.print d with
      | error e => exact .inr ⟨[], d, ds, [], e, rfl, .nil, hd⟩
      | ok text =>
          rcases ih with ⟨texts, hp⟩ | ⟨before, d', after, texts, e, rfl, hp, he⟩
          · exact .inl ⟨text :: texts, .cons hd hp⟩
          · exact .inr ⟨d :: before, d', after, text :: texts, e, rfl, .cons hd hp, he⟩

theorem writes_iff_exists_prints {ds : List Display} :
    Writes h ds ↔ ∃ texts, Prints h ds texts := by
  constructor
  · intro hwrites
    rcases prints_or_refused h ds with hp | ⟨before, d, after, _, e, rfl, -, he⟩
    · exact hp
    · rcases hwrites d (by simp) with ⟨text, htext⟩
      rw [he] at htext
      cases htext
  · rintro ⟨texts, hp⟩
    induction hp with
    | nil => exact fun _ hd => absurd hd List.not_mem_nil
    | cons htext _ ih => exact List.forall_mem_cons.mpr ⟨⟨_, htext⟩, ih⟩

theorem not_writes_of_refused {ds : List Display} {d : Display} {e : ε} (hd : d ∈ ds)
    (hrefused : h.print d = .error e) : ¬ Writes h ds := by
  intro hwrites
  rcases hwrites d hd with ⟨text, htext⟩
  rw [hrefused] at htext
  cases htext

theorem telling_cases (h : Host ε) (ds : List Display) (result : Except (Ending ε) α) :
    (Writes h ds ∧ ∃ stderr, telling h ds result = ⟨{ stderr := stderr }, result⟩) ∨
      ∃ d ∈ ds, ∃ e stderr, h.print d = .error e ∧
        telling h ds result = ⟨{ stderr := stderr }, .error (.crash (.console e))⟩ := by
  rcases prints_or_refused h ds with ⟨texts, hp⟩ | ⟨before, d, after, texts, e, rfl, hp, he⟩
  · exact .inl ⟨writes_iff_exists_prints.mpr ⟨texts, hp⟩, _, telling_of_prints hp result⟩
  · exact .inr ⟨d, by simp, e, _, he, telling_of_refused hp he after result⟩

/-- A course of which nothing but what the console is told comes, up to its ending or to the
first display that is refused. -/
structure Course.Tells (c : Course ε) (h : Host ε) (ds : List Display) (ending : Ending ε) :
    Prop where
  printed : ∀ texts, Prints h ds texts → c = ⟨{ stderr := String.join texts }, ending⟩
  refused : ∀ before d after texts e, ds = before ++ d :: after → Prints h before texts →
    h.print d = .error e → c = ⟨{ stderr := String.join texts }, .crash (.console e)⟩

theorem tells_ofRun (ds : List Display) (ending : Ending ε) :
    (Course.ofRun (telling h ds (.error ending))).Tells h ds ending where
  printed texts hp := by rw [telling_of_prints hp, Course.ofRun]
  refused before d after texts e hds hp he := by
    rw [hds, telling_of_refused hp he, Course.ofRun]

/-! ### What is told about a file -/

def shownSetting : Key × Value → String
  | (k, .flag true) => k.label ++ "=True"
  | (k, .flag false) => k.label ++ "=False"
  | (k, .word word) => k.label ++ "=" ++ word
  | (k, .number n) => k.label ++ "=" ++ Text.decimal n

def shownSettings (s : Style) : String :=
  if s.entries = [] then "none" else ", ".intercalate (s.entries.map shownSetting)

def toldSettings (t : Tree) (cwd : Location) (o : CheckOptions) (path : String) :
    List Display :=
  match t.style cwd (Path.ofText path) StyleFile.defaultName with
  | .error _ => []
  | .ok style =>
      if o.verbose || o.debug then
        [.markup ("[dim]" ++ path ++ ": " ++ shownSettings style ++ "[/dim]")]
      else
        []

def checkTime (h : Host ε) (file : Nat) : Float :=
  (h.clock (2 * file + 1) - h.clock (2 * file)) * 1000

def toldTime (h : Host ε) (o : CheckOptions) (path : String) (file : Nat) : List Display :=
  if o.debug then
    [.markup ("[dim]" ++ path ++ ": checked in " ++ Binary64.fixedText 1 (checkTime h file) ++
      "ms[/dim]")]
  else
    []

def toldFile (h : Host ε) (t : Tree) (cwd : Location) (o : CheckOptions)
    (file : String × Nat) : List Display :=
  toldSettings t cwd o file.1 ++ toldTime h o file.1 file.2

theorem tellIf_eq (asked : Bool) (line : String) :
    tellIf h asked line =
      telling h (if asked then [.markup line] else []) (.ok ()) := by
  cases asked with
  | false => exact (telling_nil _).symm
  | true =>
      show tell h (.markup line) = telling h [.markup line] (.ok ())
      rw [telling_cons, telling_nil, tell]
      split
      · rw [Run.bind_of_ok rfl, Output.append_empty]
      · exact (Run.stop_bind _ _).symm

theorem refuse_eq (line : String) :
    (refuse h line : Run (Ending ε) α) = telling h [.markup line] (.error (.exit 2)) := by
  rw [telling_cons, telling_nil]
  rfl

theorem toldSettings_of_style {style : Style}
    (hstyle : t.style cwd (Path.ofText path) StyleFile.defaultName = .ok style) :
    toldSettings t cwd o path =
      if o.verbose || o.debug then
        [.markup ("[dim]" ++ path ++ ": " ++ shownSettings style ++ "[/dim]")]
      else
        [] := by
  rw [toldSettings, hstyle]

theorem settingsLine_eq (path : String) (s : Style) :
    settingsLine path s = "[dim]" ++ path ++ ": " ++ shownSettings s ++ "[/dim]" := by
  have hsetting : settingText = shownSetting := by
    funext entry
    rcases entry with ⟨k, v⟩
    cases v with
    | word word => rfl
    | number n => rfl
    | flag b => cases b <;> simp [settingText, shownSetting, String.append_assoc]
  rw [settingsLine, shownSettings, hsetting, Style.isEmpty]
  simp only [List.isEmpty_iff]

variable {line : String} {paths earlier : List String}

def Styled (t : Tree) (cwd : Location) (path : String) : Prop :=
  ∃ style, t.style cwd (Path.ofText path) StyleFile.defaultName = .ok style

/-- The path has a style and leads to a file that may be read. -/
def Checkable (t : Tree) (cwd : Location) (path : String) : Prop :=
  Styled t cwd path ∧ ∃ bytes, t.openRaw cwd path = .ok (.bytes bytes)

def Reports (h : Host ε) (t : Tree) (cwd : Location) (file : String × Nat)
    (report : FileReport) : Prop :=
  ∃ style bytes, t.style cwd (Path.ofText file.1) StyleFile.defaultName = .ok style ∧
    t.openRaw cwd file.1 = .ok (.bytes bytes) ∧
    report = ⟨file.1, style.check bytes, Binary64.hundredths (checkTime h file.2)⟩

def faultText : PathFault → String
  | .notFound => "[Errno 2] No such file or directory: "
  | .notADirectory => "[Errno 20] Not a directory: "
  | .isADirectory => "[Errno 21] Is a directory: "

/-- Why a check stops at a file, with the line that tells it. -/
inductive StopsAt (t : Tree) (cwd : Location) (path : String) : String → Prop where
  | unstyled {e : ResolveError}
      (hstyle : t.style cwd (Path.ofText path) StyleFile.defaultName = .error e)
      (hforeseen : e.isForeseen = true) :
      StopsAt t cwd path ("[bold red]Config error:[/bold red] " ++ e.message)
  | missing {fault : PathFault} (hstyled : Styled t cwd path)
      (hopen : t.openRaw cwd path = .error fault) :
      StopsAt t cwd path ("[bold red]I/O error:[/bold red] " ++ path ++ ": " ++
        (faultText fault ++ Text.quoted path))
  | locked (hstyled : Styled t cwd path) (hopen : t.openRaw cwd path = .ok .locked) :
      StopsAt t cwd path ("[bold red]I/O error:[/bold red] " ++ path ++ ": " ++
        ("[Errno 13] Permission denied: " ++ Text.quoted path))

/-! ## One file -/

theorem exists_reports_of_checkable (hcheckable : Checkable t cwd path) (h : Host ε)
    (file : Nat) : ∃ report, Reports h t cwd (path, file) report := by
  rcases hcheckable with ⟨⟨style, hstyle⟩, bytes, hopen⟩
  exact ⟨_, style, bytes, hstyle, hopen, rfl⟩

theorem PathFault.message_eq (fault : PathFault) (path : String) :
    fault.message path = faultText fault ++ Text.quoted path := by
  cases fault with
  | notFound => rfl
  | notADirectory => rfl
  | isADirectory => rfl

theorem styleOf_of_foreseen {e : ResolveError}
    (hstyle : t.style cwd (Path.ofText path) StyleFile.defaultName = .error e)
    (hforeseen : e.isForeseen = true) :
    styleOf h t cwd path =
      telling h [.markup ("[bold red]Config error:[/bold red] " ++ e.message)]
        (.error (.exit 2)) := by
  rw [styleOf, hstyle]
  dsimp only
  rw [if_pos hforeseen, refuse_eq]

theorem checkFile_of_reports {report : FileReport} {file : Nat}
    (hr : Reports h t cwd (path, file) report) (o : CheckOptions) :
    checkFile h t cwd o file path = telling h (toldFile h t cwd o (path, file)) (.ok report) := by
  rcases hr with ⟨style, bytes, hstyle, hopen, rfl⟩
  have hstyleOf : styleOf h t cwd path = pure style := by rw [styleOf, hstyle]
  have hbytesOf : bytesOf h t cwd path = pure bytes := by rw [bytesOf, hopen]
  rw [checkFile, hstyleOf, Run.pure_bind, tellIf_eq, toldFile, toldSettings_of_style hstyle,
    settingsLine_eq]
  refine telling_ok_bind_telling _ ?_ _
  rw [hbytesOf, Run.pure_bind, tellIf_eq, telling_ok_map]
  rfl

theorem checkFile_of_stopsAt (hstops : StopsAt t cwd path line) (h : Host ε)
    (o : CheckOptions) (file : Nat) :
    checkFile h t cwd o file path =
      telling h (toldSettings t cwd o path ++ [.markup line]) (.error (.exit 2)) := by
  have hunread : Styled t cwd path →
      bytesOf h t cwd path = telling h [.markup line] (.error (.exit 2)) →
      checkFile h t cwd o file path =
        telling h (toldSettings t cwd o path ++ [.markup line]) (.error (.exit 2)) := by
    rintro ⟨style, hstyle⟩ hbytesOf
    have hstyleOf : styleOf h t cwd path = pure style := by rw [styleOf, hstyle]
    rw [checkFile, hstyleOf, Run.pure_bind, tellIf_eq, toldSettings_of_style hstyle,
      settingsLine_eq]
    refine telling_ok_bind_telling _ ?_ _
    rw [hbytesOf, telling_error_bind]
  cases hstops with
  | unstyled hstyle hforeseen =>
      rw [checkFile, styleOf_of_foreseen hstyle hforeseen, telling_error_bind, toldSettings,
        hstyle]
      rfl
  | missing hstyled hopen =>
      apply hunread hstyled
      rw [bytesOf, hopen]
      dsimp only
      rw [refuse_eq, PathFault.message_eq]
  | locked hstyled hopen =>
      apply hunread hstyled
      rw [bytesOf, hopen]
      dsimp only
      rw [refuse_eq]
      rfl

/-! ## Several files -/

theorem checkFiles_of_reports {file : Nat} {files : List FileReport}
    (hr : List.Forall₂ (Reports h t cwd) (paths.zipIdx file) files) (o : CheckOptions) :
    checkFiles h t cwd o file paths =
      telling h ((paths.zipIdx file).flatMap (toldFile h t cwd o)) (.ok files) := by
  induction paths generalizing file files with
  | nil =>
      cases hr
      exact (telling_nil _).symm
  | cons path paths ih =>
      rcases hr with _ | ⟨hfirst, hrest⟩
      rw [checkFiles, checkFile_of_reports hfirst o, List.zipIdx_cons, List.flatMap_cons]
      refine telling_ok_bind_telling _ ?_ _
      rw [ih hrest, telling_ok_map]

theorem checkFiles_of_stopsAt (hearlier : ∀ p ∈ earlier, Checkable t cwd p)
    (hstops : StopsAt t cwd path line) (h : Host ε) (o : CheckOptions) (file : Nat)
    (rest : List String) :
    checkFiles h t cwd o file (earlier ++ path :: rest) =
      telling h ((earlier.zipIdx file).flatMap (toldFile h t cwd o) ++
        (toldSettings t cwd o path ++ [.markup line])) (.error (.exit 2)) := by
  induction earlier generalizing file with
  | nil =>
      rw [List.nil_append, checkFiles, checkFile_of_stopsAt hstops, telling_error_bind]
      rfl
  | cons first earlier ih =>
      have hall := List.forall_mem_cons.mp hearlier
      rcases exists_reports_of_checkable hall.left h file with ⟨report, hfirst⟩
      rw [List.cons_append, checkFiles, checkFile_of_reports hfirst o, List.zipIdx_cons,
        List.flatMap_cons, List.append_assoc]
      refine telling_ok_bind_telling _ ?_ _
      rw [ih hall.right (file + 1), telling_error_bind]

theorem exists_reports_of_all (hall : ∀ p ∈ paths, Checkable t cwd p) (h : Host ε)
    (file : Nat) : ∃ files, List.Forall₂ (Reports h t cwd) (paths.zipIdx file) files := by
  induction paths generalizing file with
  | nil => exact ⟨[], .nil⟩
  | cons path paths ih =>
      rcases exists_reports_of_checkable (hall path List.mem_cons_self) h file with
        ⟨report, hfirst⟩
      rcases ih (fun p hp => hall p (List.mem_cons_of_mem path hp)) (file + 1) with
        ⟨files, hrest⟩
      exact ⟨report :: files, .cons hfirst hrest⟩

/-! ## Formats -/

section Labels

variable {α : Type} {label : α → String} {all : List α} {name : String}

theorem exists_label_of_find? {a : α} (hfind : all.find? (label · = name) = some a) :
    ∃ a ∈ all, label a = name :=
  ⟨a, List.mem_of_find?_eq_some hfind, by simpa using List.find?_some hfind⟩

theorem not_exists_label_of_find? (hfind : all.find? (label · = name) = none) :
    ¬ ∃ a ∈ all, label a = name := by
  rintro ⟨a, ha, hname⟩
  exact List.find?_eq_none.mp hfind a ha (decide_eq_true hname)

end Labels

theorem label_of_find? {format : ReportFormat} {name : String}
    (hfind : ReportFormat.all.find? (·.label = name) = some format) : format.label = name := by
  simpa using List.find?_some hfind

theorem find?_label (format : ReportFormat) :
    ReportFormat.all.find? (·.label = format.label) = some format := by
  cases format with
  | text => rfl
  | terminal => rfl
  | json => rfl
  | sarif => rfl

end Command

end FileStyle
