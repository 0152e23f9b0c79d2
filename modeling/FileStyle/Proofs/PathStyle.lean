import FileStyle.Proofs.Merging

/-!
# The style of a path from last values

Only the last value of each key decides over the style of a path: it is what the key is
set to, and the only value that validation can refuse. What an earlier section says is
neither used nor checked.
-/

namespace FileStyle

/-! ## Settings -/

theorem Key.ofLabel?_eq_some_iff {label : String} {k : Key} :
    Key.ofLabel? label = some k ↔ k.label = label := by
  constructor
  · intro h
    simpa using List.find?_some h
  · intro h
    rw [← h]
    cases k with
    | indentStyle => rfl
    | indentSize => rfl
    | tabWidth => rfl
    | endOfLine => rfl
    | charset => rfl
    | trimTrailingWhitespace => rfl
    | insertFinalNewline => rfl

namespace Settings

def effective (value : String) : Option String :=
  if normalize value = "unset" then none else some (normalize value)

def ofValues (values : String → Option String) : Settings :=
  fun k => (values k.label).bind effective

theorem ofValues_eq_some_iff {values : String → Option String} {k : Key} {v : String} :
    ofValues values k = some v ↔
      ∃ value, values k.label = some value ∧ normalize value ≠ "unset" ∧ v = normalize value := by
  rw [ofValues, Option.bind_eq_some_iff]
  apply exists_congr
  intro value
  apply and_congr_right
  intro _
  unfold effective
  by_cases hunset : normalize value = "unset"
  · simp [hunset]
  · simp [hunset, eq_comm]

theorem ofValues_of_unset {values : String → Option String} {k : Key} {value : String}
    (hvalue : values k.label = some value) (hunset : normalize value = "unset") :
    ofValues values k = none := by
  rw [ofValues, hvalue, Option.bind_some, effective, if_pos hunset]

theorem add_of_label {k : Key} (hkey : normalize k.label = k.label) (s : Settings)
    (value : String) : s.add (k.label, value) = s.put k (effective value) := by
  have hlabel : Key.ofLabel? (normalize k.label) = some k := by
    rw [hkey]
    exact Key.ofLabel?_eq_some_iff.mpr rfl
  rw [add, hlabel]
  rfl

theorem add_of_ne {k : Key} {key : String} (hkey : normalize key = key) (hne : key ≠ k.label)
    (s : Settings) (value : String) : s.add (key, value) k = s k := by
  rw [add, hkey]
  cases hlabel : Key.ofLabel? key with
  | none => rfl
  | some other =>
      have hother : k ≠ other := by
        intro heq
        rw [heq] at hne
        exact hne (Key.ofLabel?_eq_some_iff.mp hlabel).symm
      exact if_neg hother

theorem ofProperties_eq_ofValues {ps : Properties} (h : ps.Tidy) :
    ofProperties ps = ofValues ps.get? := by
  have hfrom : ∀ (s : Settings) (k : Key),
      ps.foldl add s k = (ps.get? k.label).elim (s k) effective := by
    induction ps with
    | nil =>
        intro s k
        rfl
    | cons pair ps ih =>
        rcases pair with ⟨key, value⟩
        rcases List.nodup_cons.mp h.nodup with ⟨hfresh, hrest⟩
        have hnormal := List.forall_mem_cons.mp h.normal
        intro s k
        rw [List.foldl_cons, ih ⟨hrest, hnormal.right⟩, Properties.get?_cons]
        by_cases hkey : key = k.label
        · have hlabel : normalize k.label = k.label := by
            rw [← hkey]
            exact hnormal.left
          rw [← hkey, Properties.get?_of_not_mem hfresh, if_pos rfl, hkey, add_of_label hlabel,
            Option.elim_none, Option.elim_some, put, if_pos rfl]
        · rw [if_neg hkey, add_of_ne hnormal.left hkey]
  funext k
  rw [ofProperties, hfrom, ofValues]
  cases ps.get? k.label with
  | none => rfl
  | some value => rfl

end Settings

/-! ## Validation -/

namespace Value

variable {α : Type} {settings : Settings} {k : Key} {e : StyleError}

def NamesFault (read : Key → String → Except StyleError α) : Prop :=
  ∀ k v e, read k v = .error e → e.key = k ∧ e.value = v

theorem namesFault_readWord (choices : List (String × α)) : NamesFault (readWord choices) := by
  intro k v e h
  unfold readWord at h
  split at h
  · cases h
  · cases h
    exact ⟨rfl, rfl⟩

theorem namesFault_readColumns : NamesFault readColumns := by
  intro k v e h
  unfold readColumns at h
  split at h
  · cases h
    exact ⟨rfl, rfl⟩
  · split at h
    · cases h
    · cases h
      exact ⟨rfl, rfl⟩

theorem namesFault_readFlag : NamesFault readFlag := by
  intro k v e h
  unfold readFlag at h
  split at h
  · cases h
  · split at h
    · cases h
    · cases h
      exact ⟨rfl, rfl⟩

theorem setting_of_readIfSet_error {read : Key → String → Except StyleError α}
    (hread : NamesFault read) (h : readIfSet settings k read = .error e) :
    settings e.key = some e.value := by
  unfold readIfSet at h
  cases hset : settings k with
  | none =>
      rw [hset] at h
      cases h
  | some v =>
      rw [hset] at h
      rcases hread k v e (map_eq_error_iff.mp h) with ⟨hkey, hvalue⟩
      rw [hkey, hvalue, hset]

theorem setting_of_readIndentSize_error {tabWidth : Option Columns}
    (h : readIndentSize settings tabWidth = .error e) : settings e.key = some e.value := by
  unfold readIndentSize at h
  split at h
  · cases h
  · exact setting_of_readIfSet_error namesFault_readColumns h

theorem readIfSet_of_none {read : Key → String → Except StyleError α} (h : settings k = none) :
    readIfSet settings k read = .ok none := by
  rw [readIfSet, h]

theorem eq_none_iff_of_readIfSet {read : Key → String → Except StyleError α} {x : Option α}
    (h : readIfSet settings k read = .ok x) : x = none ↔ settings k = none := by
  unfold readIfSet at h
  split at h
  · next hnone =>
      cases h
      simp [hnone]
  · next v hv =>
      rcases map_eq_ok_iff.mp h with ⟨a, -, rfl⟩
      simp [hv]

theorem readIndentSize_of_none {tabWidth : Option Columns}
    (h : settings .indentSize = none) : readIndentSize settings tabWidth = .ok none := by
  rw [readIndentSize, h]
  exact readIfSet_of_none h

end Value

namespace Style

open Value

variable {settings : Settings} {style : Style}

theorem setting_of_ofSettings_error {e : StyleError} (h : ofSettings settings = .error e) :
    settings e.key = some e.value := by
  rcases bind_eq_error_iff.mp h with h | ⟨_, -, h⟩
  · exact setting_of_readIfSet_error (namesFault_readWord _) h
  rcases bind_eq_error_iff.mp h with h | ⟨_, -, h⟩
  · exact setting_of_readIfSet_error (namesFault_readWord _) h
  rcases bind_eq_error_iff.mp h with h | ⟨_, -, h⟩
  · exact setting_of_readIfSet_error (namesFault_readWord _) h
  rcases bind_eq_error_iff.mp h with h | ⟨_, -, h⟩
  · exact setting_of_readIfSet_error namesFault_readColumns h
  rcases bind_eq_error_iff.mp h with h | ⟨_, -, h⟩
  · exact setting_of_readIndentSize_error h
  rcases bind_eq_error_iff.mp h with h | ⟨_, -, h⟩
  · exact setting_of_readIfSet_error namesFault_readFlag h
  rcases bind_eq_error_iff.mp h with h | ⟨_, -, h⟩
  · exact setting_of_readIfSet_error namesFault_readFlag h
  · cases h

structure ReadFrom (settings : Settings) (style : Style) : Prop where
  indentStyle : readIfSet settings .indentStyle
    (readWord (Indent.all.map fun k => (k.label, k))) = .ok style.indentStyle
  endOfLine : readIfSet settings .endOfLine
    (readWord (EndOfLine.all.map fun e => (e.label, e))) = .ok style.endOfLine
  charset : readIfSet settings .charset
    (readWord (Charset.all.map fun c => (c.label, c))) = .ok style.charset
  tabWidth : readIfSet settings .tabWidth readColumns = .ok style.tabWidth
  indentSize : readIndentSize settings style.tabWidth = .ok style.indentSize
  trimTrailingWhitespace :
    readIfSet settings .trimTrailingWhitespace readFlag = .ok style.trimTrailingWhitespace
  insertFinalNewline :
    readIfSet settings .insertFinalNewline readFlag = .ok style.insertFinalNewline

theorem readFrom_of_ofSettings (h : ofSettings settings = .ok style) :
    style.ReadFrom settings := by
  rcases bind_eq_ok_iff.mp h with ⟨indentStyle, hstyle, h⟩
  rcases bind_eq_ok_iff.mp h with ⟨endOfLine, hend, h⟩
  rcases bind_eq_ok_iff.mp h with ⟨charset, hcharset, h⟩
  rcases bind_eq_ok_iff.mp h with ⟨tabWidth, htab, h⟩
  rcases bind_eq_ok_iff.mp h with ⟨indentSize, hsize, h⟩
  rcases bind_eq_ok_iff.mp h with ⟨trim, htrim, h⟩
  rcases bind_eq_ok_iff.mp h with ⟨final, hfinal, h⟩
  cases h
  exact ⟨hstyle, hend, hcharset, htab, hsize, htrim, hfinal⟩

theorem value?_of_not_set (h : ofSettings settings = .ok style) {k : Key}
    (hk : settings k = none) : style.value? k = none := by
  have hread := readFrom_of_ofSettings h
  cases k with
  | indentSize =>
      have hsize := hread.indentSize
      rw [readIndentSize_of_none hk] at hsize
      rw [value?, ← Except.ok.inj hsize]
      rfl
  | indentStyle =>
      rw [value?, (eq_none_iff_of_readIfSet hread.indentStyle).mpr hk]
      rfl
  | tabWidth =>
      rw [value?, (eq_none_iff_of_readIfSet hread.tabWidth).mpr hk]
      rfl
  | endOfLine =>
      rw [value?, (eq_none_iff_of_readIfSet hread.endOfLine).mpr hk]
      rfl
  | charset =>
      rw [value?, (eq_none_iff_of_readIfSet hread.charset).mpr hk]
      rfl
  | trimTrailingWhitespace =>
      rw [value?, (eq_none_iff_of_readIfSet hread.trimTrailingWhitespace).mpr hk]
      rfl
  | insertFinalNewline =>
      rw [value?, (eq_none_iff_of_readIfSet hread.insertFinalNewline).mpr hk]
      rfl

end Style

/-! ## Styles of paths -/

namespace Tree

open StyleFile

/-- The properties of a path are merged from its applied sections, and its style is what
their last values set: no other value can be refused, and a last value `unset` leaves its
key without a rule. Only a path without applied sections has no properties.

Sections see the path from the directory of their file. A file with a plain name is always
in a directory above the path; a name with separators may lead to one that is not. -/
theorem style_of_last_values {t : Tree} {cwd : Location} {path target : Path}
    {fileName : String} {files : List StyleFile}
    (htarget : t.canonical cwd path = .ok target)
    (hfiles : t.styleFiles cwd target fileName = .ok files)
    (hplace : (∃ name, Path.ofText fileName = ⟨.relative, [name]⟩) ∨
      ∀ f ∈ files, ∃ names, target.below? f.directory = some names)
    (hnames : ∀ f ∈ files, ∀ s ∈ f.sheet.sections, ∃ m, Glob.Matcher.ofName s.name = .ok m) :
    (t.properties cwd path fileName = .error (.noSection path) ↔
        appliedSections target files = []) ∧
      (appliedSections target files = [] →
        t.style cwd path fileName = .error (.noSection path)) ∧
      (appliedSections target files ≠ [] →
        (∃ ps, t.properties cwd path fileName = .ok ps ∧
          Properties.MergedFrom (appliedSections target files) ps) ∧
        t.style cwd path fileName =
          (Style.ofSettings (Settings.ofValues
            (Section.lastValue? (appliedSections target files)))).mapError .badValue ∧
        (∀ e, t.style cwd path fileName = .error e →
          ∃ fault value, e = .badValue fault ∧
            Section.lastValue? (appliedSections target files) fault.key.label = some value ∧
            normalize value ≠ "unset" ∧ fault.value = normalize value) ∧
        ∀ k value style,
          Section.lastValue? (appliedSections target files) k.label = some value →
          normalize value = "unset" → t.style cwd path fileName = .ok style →
          style.value? k = none) := by
  have hbelow : ∀ f ∈ files, ∃ names, target.below? f.directory = some names := by
    rcases hplace with ⟨name, hname⟩ | hbelow
    · intro f hf
      exact exists_below?_directory hname hfiles hf
    · exact hbelow
  have hproperties := properties_eq htarget hfiles hbelow hnames
  have htidy : ∀ s ∈ appliedSections target files, s.properties.Tidy := by
    intro s hs
    rcases exists_of_mem_appliedSections hs with ⟨f, hf, hmem⟩
    exact tidy_of_styleFiles hfiles hf s hmem
  refine ⟨⟨?_, ?_⟩, ?_, ?_⟩
  · intro h
    by_contra hsome
    rw [hproperties, if_neg hsome] at h
    cases h
  · intro hnone
    rw [hproperties, if_pos hnone]
  · intro hnone
    rw [style, hproperties, if_pos hnone]
    rfl
  · intro hsome
    rw [if_neg hsome] at hproperties
    have hmerged := Properties.mergedFrom_ofSections htidy
    have hstyle : t.style cwd path fileName =
        (Style.ofSettings (Settings.ofValues
          (Section.lastValue? (appliedSections target files)))).mapError .badValue := by
      rw [← funext hmerged.get?,
        ← Settings.ofProperties_eq_ofValues (Properties.tidy_ofSections htidy), style,
        hproperties]
      rfl
    refine ⟨⟨_, hproperties, hmerged⟩, hstyle, ?_, ?_⟩
    · intro e he
      rw [hstyle] at he
      rcases mapError_eq_error_iff.mp he with ⟨fault, hfault, rfl⟩
      have hset := Style.setting_of_ofSettings_error hfault
      rcases Settings.ofValues_eq_some_iff.mp hset with ⟨value, hvalue, hunset, hfaulty⟩
      exact ⟨fault, value, rfl, hvalue, hunset, hfaulty⟩
    · intro k value style hvalue hunset hok
      rw [hstyle] at hok
      exact Style.value?_of_not_set (mapError_eq_ok_iff.mp hok)
        (Settings.ofValues_of_unset hvalue hunset)

/-- Two style files above a path. The farther one gives a charset that is none and then
another, and the nearer one takes back the width of a tabulator. -/
def nestedFiles : Tree :=
  ⟨[(["p"], .directory), (["p", "s"], .directory), (["p", "s", "a.py"], .file []),
    (["p", ".editorconfig"],
      .file "[*]\ncharset=x\ntab_width=2\n[*.py]\nCharset=utf-8".toUTF8.toList),
    (["p", "s", ".editorconfig"], .file "[a.*]\ntab_width=unset".toUTF8.toList)]⟩

def nestedSheets : List StyleFile :=
  [⟨⟨.root, ["p", "s", ".editorconfig"]⟩, ⟨false, [⟨"a.*", 1, [("tab_width", "unset")]⟩]⟩⟩,
    ⟨⟨.root, ["p", ".editorconfig"]⟩,
      ⟨false, [⟨"*", 1, [("charset", "x"), ("tab_width", "2")]⟩,
        ⟨"*.py", 4, [("charset", "utf-8")]⟩]⟩⟩]

theorem style_of_last_values_of_nested_files :
    ∃ ps, nestedFiles.properties [] ⟨.root, ["p", "s", "a.py"]⟩ ".editorconfig" = .ok ps ∧
      ps.map (·.1) = ["charset", "tab_width"] ∧ ps.get? "charset" = some "utf-8" ∧
      ps.get? "tab_width" = some "unset" ∧
      ∃ style, nestedFiles.style [] ⟨.root, ["p", "s", "a.py"]⟩ ".editorconfig" = .ok style ∧
        style.charset = some .utf8 ∧ style.value? .tabWidth = none := by
  have htarget : nestedFiles.canonical [] ⟨.root, ["p", "s", "a.py"]⟩ =
      .ok ⟨.root, ["p", "s", "a.py"]⟩ := by
    decide +kernel
  have hfiles : nestedFiles.styleFiles [] ⟨.root, ["p", "s", "a.py"]⟩ ".editorconfig" =
      .ok nestedSheets := by
    decide +kernel
  have hname : Path.ofText ".editorconfig" = ⟨.relative, [".editorconfig"]⟩ := by
    decide
  have hnamed : Glob.Matcher.ofName "a.*" =
      .ok ⟨true, [[.literal 'a', .literal '.', .run]]⟩ := by
    cbv
  have hany : Glob.Matcher.ofName "*" = .ok ⟨true, [[.run]]⟩ := by
    cbv
  have hscripts : Glob.Matcher.ofName "*.py" =
      .ok ⟨true, [[.run, .literal '.', .literal 'p', .literal 'y']]⟩ := by
    cbv
  have hnames : ∀ f ∈ nestedSheets, ∀ s ∈ f.sheet.sections,
      ∃ m, Glob.Matcher.ofName s.name = .ok m := by
    simp [nestedSheets, hnamed, hany, hscripts]
  have happlied : appliedSections ⟨.root, ["p", "s", "a.py"]⟩ nestedSheets =
      [⟨"*", 1, [("charset", "x"), ("tab_width", "2")]⟩, ⟨"*.py", 4, [("charset", "utf-8")]⟩,
        ⟨"a.*", 1, [("tab_width", "unset")]⟩] := by
    cbv
  rcases style_of_last_values htarget hfiles (.inl ⟨_, hname⟩) hnames with ⟨-, -, hsome⟩
  rw [happlied] at hsome
  rcases hsome (by simp) with ⟨⟨ps, hps, hmerged⟩, hstyle, -, hunset⟩
  have hvalid : Style.ofSettings (Settings.ofValues (Section.lastValue?
      [⟨"*", 1, [("charset", "x"), ("tab_width", "2")]⟩, ⟨"*.py", 4, [("charset", "utf-8")]⟩,
        ⟨"a.*", 1, [("tab_width", "unset")]⟩])) = .ok { charset := some .utf8 } := by
    decide +kernel
  have hok : nestedFiles.style [] ⟨.root, ["p", "s", "a.py"]⟩ ".editorconfig" =
      .ok { charset := some .utf8 } := by
    rw [hstyle, hvalid]
    rfl
  refine ⟨ps, hps, hmerged.keys.trans ?_, (hmerged.get? _).trans ?_, (hmerged.get? _).trans ?_,
    _, hok, rfl, hunset .tabWidth "unset" _ ?_ ?_ hok⟩
  · decide +kernel
  · decide
  · decide
  · decide
  · decide +kernel

end Tree
end FileStyle
