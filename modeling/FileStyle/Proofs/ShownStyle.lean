import FileStyle.Proofs.ExitCodes
import FileStyle.Proofs.PlainLines
import FileStyle.Proofs.SingleSection

/-!
# A style that is shown is a style file

The lines in which a style is shown make a section of a style file, and the section gives
the style back, however the properties were spelled that the style first came from. So a
project whose only style file has them, below the header for every path, gives each of its
files this style.
-/

namespace FileStyle

theorem Key.label_injective : Function.Injective Key.label := by
  intro k k' h
  have hsome := Key.ofLabel?_eq_some_iff.mpr h
  rw [Key.ofLabel?_eq_some_iff.mpr rfl] at hsome
  exact (Option.some.inj hsome).symm

/-! ## Values -/

def IsShownText (text : String) : Prop :=
  Text.IsPlain text.toList ∧ text ≠ "unset"

instance (text : String) : Decidable (IsShownText text) :=
  inferInstanceAs (Decidable (_ ∧ _))

theorem Indent.isShownText_label (i : Indent) : IsShownText i.label := by
  have hall : ∀ i ∈ Indent.all, IsShownText i.label := by decide
  exact hall i i.mem_all

theorem EndOfLine.isShownText_label (e : EndOfLine) : IsShownText e.label := by
  have hall : ∀ e ∈ EndOfLine.all, IsShownText e.label := by decide
  exact hall e e.mem_all

theorem Charset.isShownText_label (c : Charset) : IsShownText c.label := by
  have hall : ∀ c ∈ Charset.all, IsShownText c.label := by decide
  exact hall c c.mem_all

theorem Text.decimal_ne {n : Nat} {s : String} {c : Char} (hmem : c ∈ s.toList)
    (hc : c ∉ Text.digitCharacters) : Text.decimal n ≠ s := by
  intro heq
  rw [← heq, Text.decimal, String.toList_ofList] at hmem
  exact hc (Text.mem_decimalOfNat hmem)

theorem isShownText_decimal (n : Nat) : IsShownText (Text.decimal n) := by
  have hplain : ∀ c ∈ Text.digitCharacters, c ∈ Text.plainCharacters :=
    fun c hc => List.mem_append_left _ (List.mem_append_right _ hc)
  constructor
  · rw [Text.decimal, String.toList_ofList]
    exact ⟨Text.decimalOfNat_ne_nil n, fun c hc => hplain c (Text.mem_decimalOfNat hc)⟩
  · have hmem : 'u' ∈ "unset".toList := by decide
    exact Text.decimal_ne hmem (by decide)

theorem isShownText_flag (b : Bool) : IsShownText (Value.flag b).text := by
  cases b with
  | false => decide
  | true => decide

theorem Style.isShownText_of_value? {s : Style} {k : Key} {v : Value} (h : s.value? k = some v) :
    IsShownText v.text := by
  cases k with
  | indentStyle =>
      rcases Option.map_eq_some_iff.mp h with ⟨i, -, rfl⟩
      exact i.isShownText_label
  | indentSize =>
      rcases Option.map_eq_some_iff.mp h with ⟨n, -, rfl⟩
      exact isShownText_decimal n.count
  | tabWidth =>
      rcases Option.map_eq_some_iff.mp h with ⟨n, -, rfl⟩
      exact isShownText_decimal n.count
  | endOfLine =>
      rcases Option.map_eq_some_iff.mp h with ⟨e, -, rfl⟩
      exact e.isShownText_label
  | charset =>
      rcases Option.map_eq_some_iff.mp h with ⟨c, -, rfl⟩
      exact c.isShownText_label
  | trimTrailingWhitespace =>
      rcases Option.map_eq_some_iff.mp h with ⟨b, -, rfl⟩
      exact isShownText_flag b
  | insertFinalNewline =>
      rcases Option.map_eq_some_iff.mp h with ⟨b, -, rfl⟩
      exact isShownText_flag b

theorem IsShownText.effective {text : String} (h : IsShownText text) :
    Settings.effective text = some text := by
  rw [Settings.effective, normalize_of_plain h.left, if_neg h.right]

/-! ## Reading values -/

namespace Value

variable {α : Type} {k : Key} {settings : Settings}

theorem readColumns_lt {v : String} {n : Columns} (h : readColumns k v = .ok n) :
    n.count < 10 ^ Text.maxDigits := by
  unfold readColumns at h
  split at h
  · cases h
  · next m hm =>
      split at h
      · cases h
        exact Text.integer_lt hm
      · cases h

theorem readColumns_decimal {n : Columns} (h : n.count < 10 ^ Text.maxDigits) (k : Key) :
    readColumns k (Text.decimal n.count) = .ok n := by
  have hread : Text.integer (Text.decimal n.count).toList = .ok (n.count : Int) := by
    rw [Text.decimal, String.toList_ofList, Text.integer_decimalOfNat h]
  have hpos : 0 < (n.count : Int) := Int.natCast_pos.mpr n.pos
  rw [readColumns, hread]
  dsimp only
  rw [dif_pos hpos]
  rfl

theorem readFlag_text (k : Key) (b : Bool) : readFlag k (flag b).text = .ok b := by
  cases b with
  | false => rfl
  | true => rfl

theorem lt_of_readIfSet {x : Option Columns} (h : readIfSet settings k readColumns = .ok x)
    {n : Columns} (hn : x = some n) : n.count < 10 ^ Text.maxDigits := by
  unfold readIfSet at h
  split at h
  · cases h
    cases hn
  · rcases map_eq_ok_iff.mp h with ⟨m, hm, rfl⟩
    cases hn
    exact readColumns_lt hm

theorem readIfSet_text {read : Key → String → Except StyleError α} {x : Option α}
    {value : α → Value} (hset : settings k = (x.map value).map text)
    (hread : ∀ a, x = some a → read k (value a).text = .ok a) :
    readIfSet settings k read = .ok x := by
  unfold readIfSet
  rw [hset]
  cases x with
  | none => rfl
  | some a =>
      show (read k (value a).text).map some = .ok (some a)
      rw [hread a rfl]
      rfl

end Value

/-! ## Styles -/

namespace Style

open Value

structure Readable (s : Style) : Prop where
  indentSize : ∀ n, s.indentSize = some n → n.count < 10 ^ Text.maxDigits
  tabWidth : ∀ n, s.tabWidth = some n → n.count < 10 ^ Text.maxDigits

theorem readable_of_ofSettings {settings : Settings} {s : Style}
    (h : ofSettings settings = .ok s) : s.Readable := by
  have hread := readFrom_of_ofSettings h
  constructor
  · intro n hn
    have hsize := hread.indentSize
    unfold readIndentSize at hsize
    split at hsize
    · exact lt_of_readIfSet hread.tabWidth ((Except.ok.inj hsize).trans hn)
    · exact lt_of_readIfSet hsize hn
  · intro n hn
    exact lt_of_readIfSet hread.tabWidth hn

def texts (s : Style) : Settings :=
  fun k => (s.value? k).map Value.text

theorem readIndentSize_texts {s : Style} (h : s.Readable) :
    readIndentSize s.texts s.tabWidth = .ok s.indentSize := by
  have hword : s.texts .indentSize ≠ some "tab" := by
    intro htab
    rcases Option.map_eq_some_iff.mp htab with ⟨v, hv, htext⟩
    rcases Option.map_eq_some_iff.mp hv with ⟨n, -, rfl⟩
    have hmem : 't' ∈ "tab".toList := by decide
    exact Text.decimal_ne hmem (by decide) htext
  rw [readIndentSize, if_neg hword]
  exact readIfSet_text rfl fun n hn => readColumns_decimal (h.indentSize n hn) _

theorem ofSettings_texts {s : Style} (h : s.Readable) : ofSettings s.texts = .ok s := by
  have hindentStyle : readIfSet s.texts .indentStyle
      (readWord (Indent.all.map fun k => (k.label, k))) = .ok s.indentStyle := by
    refine readIfSet_text rfl fun i _ => ?_
    cases i <;> rfl
  have hendOfLine : readIfSet s.texts .endOfLine
      (readWord (EndOfLine.all.map fun e => (e.label, e))) = .ok s.endOfLine := by
    refine readIfSet_text rfl fun e _ => ?_
    cases e <;> rfl
  have hcharset : readIfSet s.texts .charset
      (readWord (Charset.all.map fun c => (c.label, c))) = .ok s.charset := by
    refine readIfSet_text rfl fun c _ => ?_
    cases c <;> rfl
  have htabWidth : readIfSet s.texts .tabWidth readColumns = .ok s.tabWidth :=
    readIfSet_text rfl fun n hn => readColumns_decimal (h.tabWidth n hn) _
  have htrim : readIfSet s.texts .trimTrailingWhitespace readFlag =
      .ok s.trimTrailingWhitespace :=
    readIfSet_text rfl fun b _ => readFlag_text _ b
  have hfinal : readIfSet s.texts .insertFinalNewline readFlag = .ok s.insertFinalNewline :=
    readIfSet_text rfl fun b _ => readFlag_text _ b
  rw [ofSettings, hindentStyle, hendOfLine, hcharset, htabWidth, htrim, hfinal]
  refine bind_eq_ok_iff.mpr ⟨_, rfl, bind_eq_ok_iff.mpr ⟨_, rfl, bind_eq_ok_iff.mpr ⟨_, rfl,
    bind_eq_ok_iff.mpr ⟨_, rfl, bind_eq_ok_iff.mpr ⟨_, readIndentSize_texts h, rfl⟩⟩⟩⟩⟩

/-! ## The section of a style -/

def shownPairs (s : Style) : List (String × String) :=
  s.entries.map fun e => (e.1.label, e.2.text)

theorem plainPair_of_shownPairs (s : Style) : ∀ pair ∈ s.shownPairs, PlainPair pair := by
  have hlabels : ∀ k ∈ Key.all, Text.IsPlain k.label.toList ∧ k.label ≠ "root" := by decide
  intro pair hpair
  rcases List.mem_map.mp hpair with ⟨e, he, rfl⟩
  rcases List.mem_filterMap.mp he with ⟨k, hk, hset⟩
  rcases Option.map_eq_some_iff.mp hset with ⟨v, hv, rfl⟩
  exact ⟨(hlabels k hk).left, (isShownText_of_value? hv).left, (hlabels k hk).right⟩

theorem renderIni_toList (s : Style) :
    s.renderIni.toList = s.shownPairs.flatMap fun pair => Line.pairText pair ++ ['\n'] := by
  rw [renderIni, shownPairs, List.flatMap_map]
  induction s.entries with
  | nil => rfl
  | cons e es ih =>
      rw [List.map_cons, String.join_cons, String.toList_append, ih, List.flatMap_cons,
        String.toList_append, String.toList_append, String.toList_append]
      rfl

theorem sectionText_shownPairs (s : Style) :
    ("[*]\n" ++ s.renderIni).toList = StyleSheet.sectionText s.shownPairs := by
  rw [String.toList_append, renderIni_toList]
  rfl

theorem rootText_shownPairs (s : Style) :
    ("root = true\n[*]\n" ++ s.renderIni).toList =
      "root = true\n".toList ++ StyleSheet.sectionText s.shownPairs := by
  rw [String.toList_append, renderIni_toList]
  rfl

theorem get?_filterMap (s : Style) (keys : List Key) (k : Key) :
    Properties.get? (keys.filterMap fun k => (s.value? k).map fun v => (k.label, v.text)) k.label =
      if k ∈ keys then s.texts k else none := by
  induction keys with
  | nil => rfl
  | cons first keys ih =>
      rw [List.filterMap_cons]
      cases hvalue : s.value? first with
      | none =>
          show Properties.get? (keys.filterMap _) k.label = _
          rw [ih]
          by_cases hkey : k = first
          · have hnone : s.texts k = none := by
              rw [texts, hkey, hvalue]
              rfl
            simp [hnone]
          · simp [hkey]
      | some v =>
          show Properties.get? ((first.label, v.text) :: keys.filterMap _) k.label = _
          rw [Properties.get?_cons, ih]
          by_cases hkey : k = first
          · rw [hkey, if_pos rfl, if_pos List.mem_cons_self, texts, hvalue]
            rfl
          · have hlabel : first.label ≠ k.label := fun heq => hkey (Key.label_injective heq).symm
            rw [if_neg hlabel]
            simp [hkey]

theorem get?_shownPairs (s : Style) (k : Key) :
    (Properties.ofList s.shownPairs).get? k.label = s.texts k := by
  have hpairs : s.shownPairs.reverse =
      Key.all.reverse.filterMap fun k => (s.value? k).map fun v => (k.label, v.text) := by
    rw [shownPairs, entries, List.map_filterMap, List.filterMap_reverse]
    simp only [Option.map_map, Function.comp_def]
  rw [Properties.get?_ofList, hpairs, get?_filterMap, if_pos (List.mem_reverse.mpr k.mem_all)]

theorem ofProperties_shownPairs {s : Style} (h : s.Readable) :
    ofProperties (Properties.ofList s.shownPairs) = .ok s := by
  have htidy : (Properties.ofList s.shownPairs).Tidy :=
    StyleSheet.tidy_of_parse (StyleSheet.parse_section s.plainPair_of_shownPairs) _
      List.mem_cons_self
  have hsettings : Settings.ofProperties (Properties.ofList s.shownPairs) = s.texts := by
    rw [Settings.ofProperties_eq_ofValues htidy]
    funext k
    rw [Settings.ofValues, get?_shownPairs, texts]
    cases hvalue : s.value? k with
    | none => rfl
    | some v =>
        rw [Option.map_some, Option.bind_some, (isShownText_of_value? hvalue).effective]
  rw [ofProperties, hsettings, ofSettings_texts h]

/-! ## The style again -/

theorem course_showStyle_ini {ε : Type} {t : Tree} {cwd : Location} {path : String} {s : Style}
    (hstyle : t.style cwd (Path.ofText path) StyleFile.defaultName = .ok s) (h : Host ε) :
    Command.course (.showStyle "ini" path) h t cwd = ⟨{ stdout := s.renderIni }, .exit 0⟩ := by
  have hini : StyleFormat.all.find? (·.label = "ini") = some .ini := by decide
  have hstyleOf : Command.styleOf h t cwd path = pure s := by rw [Command.styleOf, hstyle]
  show Command.Course.ofRun (Command.runShowStyle h t cwd "ini" path) = _
  rw [Command.runShowStyle, hini]
  dsimp only
  rw [hstyleOf, Run.pure_bind]
  rfl

/-- The lines of a style, below the header for every path, are read as one section, and its
properties make the style. A project whose only style file has them in a root gives the style
to each of its paths. The lines are what is printed when the style is shown. -/
theorem renderIni_reads_back {properties : List (String × String)} {s : Style}
    (h : ofProperties properties = .ok s) :
    (∃ ps, StyleSheet.parse ("[*]\n" ++ s.renderIni).toList = .ok ⟨false, [⟨"*", 1, ps⟩]⟩ ∧
        ofProperties ps = .ok s) ∧
      (∀ (t : Tree) (cwd : Location) (path target file : Path) (nearer farther : List Path),
        t.canonical cwd path = .ok target →
        target.candidates StyleFile.defaultName = nearer ++ file :: farther →
        (∀ p ∈ nearer, t.contents? cwd p = none) →
        t.contents? cwd file =
          some (.bytes (Command.savedBytes ("root = true\n[*]\n" ++ s.renderIni))) →
        t.style cwd path StyleFile.defaultName = .ok s) ∧
      ∀ (ε : Type) (host : Host ε) (t : Tree) (cwd : Location) (path : String),
        t.style cwd (Path.ofText path) StyleFile.defaultName = .ok s →
        Command.course (.showStyle "ini" path) host t cwd =
          ⟨{ stdout := s.renderIni }, .exit 0⟩ := by
  have hstyle : ofProperties (Properties.ofList s.shownPairs) = .ok s :=
    ofProperties_shownPairs (readable_of_ofSettings h)
  refine ⟨?_, ?_, fun ε host t cwd path hshown => course_showStyle_ini hshown host⟩
  · rw [sectionText_shownPairs]
    exact ⟨_, StyleSheet.parse_section s.plainPair_of_shownPairs, hstyle⟩
  · intro t cwd path target file nearer farther htarget hcandidates hnearer hfile
    have hread : StyleFile.read file
        (Command.savedBytes ("root = true\n[*]\n" ++ s.renderIni)) =
          .ok ⟨file, ⟨true, [⟨"*", 2, Properties.ofList s.shownPairs⟩]⟩⟩ := by
      rw [StyleFile.read, Command.savedBytes, Utf8.text_encode, rootText_shownPairs]
      dsimp only
      rw [StyleSheet.parse_root_section s.plainPair_of_shownPairs]
    rw [Tree.style_of_root_section htarget hcandidates hnearer hfile hread rfl rfl rfl, hstyle]
    rfl

/-- Properties in other spellings than they are shown in: blanks and capitals, digits of
another script behind a sign and a zero, a key that is given twice and at last taken away,
and a key that no rule has. -/
def oddProperties : List (String × String) :=
  [(" Indent_Style\u3000", "TAB"), ("tab_width", "\t+0_\u0668\u2003"), ("INDENT_SIZE", "Tab"),
    ("charset", "latin1"), ("end_of_line", "CRLF"), ("Charset", "UnSet "), ("width", "80")]

def oddStyle : Style :=
  { indentStyle := some .tab, indentSize := some ⟨8, by decide⟩, tabWidth := some ⟨8, by decide⟩,
    endOfLine := some .crlf }

/-- A project with the style in its root. Above the root is a style file that is not UTF-8. -/
def oddProject : Tree :=
  ⟨[(["p"], .directory), (["p", "s"], .directory), (["p", "s", "a\n.py"], .file []),
    (["p", ".editorconfig"],
      .file (Command.savedBytes ("root = true\n[*]\n" ++ oddStyle.renderIni))),
    ([".editorconfig"], .file [255])]⟩

theorem renderIni_reads_back_of_odd_properties :
    ofProperties oddProperties = .ok oddStyle ∧
      (∃ ps, StyleSheet.parse ("[*]\n" ++ oddStyle.renderIni).toList =
          .ok ⟨false, [⟨"*", 1, ps⟩]⟩ ∧ ofProperties ps = .ok oddStyle) ∧
      oddProject.style ["p"] (Path.ofText "s/a\n.py") StyleFile.defaultName =
        .ok oddStyle ∧
      Command.course (.showStyle "ini" "s/a\n.py") Command.plainHost oddProject ["p"] =
        ⟨{ stdout := oddStyle.renderIni }, .exit 0⟩ := by
  have hodd : ofProperties oddProperties = .ok oddStyle := by
    decide +kernel
  have hcandidates : Path.candidates ⟨.root, ["p", "s", "a\n.py"]⟩ StyleFile.defaultName =
      [⟨.root, ["p", "s", ".editorconfig"]⟩] ++
        ⟨.root, ["p", ".editorconfig"]⟩ :: [⟨.root, [".editorconfig"]⟩] := by
    decide
  have htarget : oddProject.canonical ["p"] (Path.ofText "s/a\n.py") =
      .ok ⟨.root, ["p", "s", "a\n.py"]⟩ := by
    decide +kernel
  have hnearer : ∀ p ∈ ([⟨.root, ["p", "s", ".editorconfig"]⟩] : List Path),
      oddProject.contents? ["p"] p = none := by
    decide +kernel
  rcases renderIni_reads_back hodd with ⟨hsection, hproject, hshown⟩
  have hstyle := hproject oddProject ["p"] _ _ _ _ _ htarget hcandidates hnearer rfl
  exact ⟨hodd, hsection, hstyle, hshown Empty Command.plainHost oddProject ["p"] _ hstyle⟩

end Style
end FileStyle
