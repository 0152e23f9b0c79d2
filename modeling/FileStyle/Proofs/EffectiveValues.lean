import FileStyle.Proofs.PathStyle

/-!
# The effective values of properties

Properties are pairs in some order, and several of them may name one key in different
spellings. Only the last pair that names a key has an effect. This module tells what these
last values make of a style: what each rule is set to, or which of several bad values is
refused.
-/

namespace FileStyle

/-! ## The values that keys allow -/

namespace Key

def words : Key → List String
  | indentStyle => Indent.all.map (·.label)
  | indentSize => ["tab"]
  | tabWidth => []
  | endOfLine => EndOfLine.all.map (·.label)
  | charset => Charset.all.map (·.label)
  | trimTrailingWhitespace => ["true", "false"]
  | insertFinalNewline => ["true", "false"]

def takesNumber : Key → Bool
  | indentSize => true
  | tabWidth => true
  | _ => false

/-- A key allows its words, and if it takes a number, every number that is positive. -/
def Allows (k : Key) (v : String) : Prop :=
  v ∈ k.words ∨ k.takesNumber = true ∧ ∃ n, 0 < n ∧ Text.integer v.toList = .ok n

def validated : List Key :=
  [indentStyle, endOfLine, charset, tabWidth, indentSize, trimTrailingWhitespace,
    insertFinalNewline]

end Key

namespace Settings

def Refuses (s : Settings) (k : Key) : Prop :=
  ∃ v, s k = some v ∧ ¬ k.Allows v

def FirstRefused (s : Settings) (keys : List Key) (k : Key) : Prop :=
  ∃ before after, keys = before ++ k :: after ∧ s.Refuses k ∧
    ∀ other ∈ before, ¬ s.Refuses other

/-! ## The last value of a key -/

def hasName (name : String) (pair : String × String) : Bool :=
  normalize pair.1 = name

def isKnown (pair : String × String) : Bool :=
  Key.all.any fun k => hasName k.label pair

/-- The effect of the last pair that names the key. -/
def lastEffective (ps : List (String × String)) (k : Key) : Option String :=
  (ps.filter (hasName k.label)).getLast?.bind fun pair => effective pair.2

theorem hasName_iff {pair : String × String} {k : Key} :
    hasName k.label pair = true ↔ Key.ofLabel? (normalize pair.1) = some k := by
  rw [hasName, decide_eq_true_iff, Key.ofLabel?_eq_some_iff, eq_comm]

theorem add_apply (s : Settings) (pair : String × String) (k : Key) :
    s.add pair k = if hasName k.label pair then effective pair.2 else s k := by
  simp only [hasName_iff, add]
  cases Key.ofLabel? (normalize pair.1) with
  | none => simp
  | some other =>
      by_cases hk : other = k
      · simp [hk, put, effective]
      · simp [hk, Ne.symm hk, put]

theorem lastEffective_append_singleton (ps : List (String × String)) (pair : String × String)
    (k : Key) :
    lastEffective (ps ++ [pair]) k =
      if hasName k.label pair then effective pair.2 else lastEffective ps k := by
  rw [lastEffective, List.filter_append, List.filter_singleton]
  cases hasName k.label pair with
  | false => simp [lastEffective]
  | true => simp

theorem ofProperties_eq_lastEffective (ps : List (String × String)) :
    ofProperties ps = lastEffective ps := by
  -- From the end, since the last pair decides about its key.
  induction ps using List.reverseRecOn with
  | nil => rfl
  | append_singleton ps pair ih =>
      funext k
      rw [ofProperties, List.foldl_append, List.foldl_cons, List.foldl_nil, add_apply,
        lastEffective_append_singleton, ← ih]
      rfl

theorem filter_hasName_eq (ps : List (String × String)) (k : Key) :
    ps.filter (hasName k.label) = (ps.filter isKnown).filter (hasName k.label) := by
  rw [List.filter_filter]
  apply List.filter_congr
  intro pair _
  cases hname : hasName k.label pair with
  | false => rfl
  | true =>
      have hknown : isKnown pair = true := List.any_eq_true.mpr ⟨k, k.mem_all, hname⟩
      rw [hknown]
      rfl

theorem filter_hasName_swap {p q : String × String} (h : normalize p.1 ≠ normalize q.1)
    (before after : List (String × String)) (name : String) :
    (before ++ p :: q :: after).filter (hasName name) =
      (before ++ q :: p :: after).filter (hasName name) := by
  rw [List.filter_append, List.filter_append, List.filter_cons, List.filter_cons,
    List.filter_cons, List.filter_cons]
  split
  · next hp =>
      split
      · next hq =>
          rw [hasName, decide_eq_true_iff] at hp hq
          exact absurd (hp.trans hq.symm) h
      · rfl
  · rfl

theorem filter_hasName_getLast? {p : String × String} {after : List (String × String)}
    (h : ∃ q ∈ after, normalize q.1 = normalize p.1) (before : List (String × String))
    (name : String) :
    ((before ++ p :: after).filter (hasName name)).getLast? =
      ((before ++ after).filter (hasName name)).getLast? := by
  rw [List.filter_append, List.filter_append, List.filter_cons]
  split
  · next hp =>
      rcases h with ⟨q, hq, heq⟩
      have hmem : q ∈ after.filter (hasName name) := by
        refine List.mem_filter.mpr ⟨hq, ?_⟩
        rw [hasName, heq]
        exact hp
      have hne : after.filter (hasName name) ≠ [] := List.ne_nil_of_mem hmem
      rw [List.getLast?_append_of_ne_nil _ (List.cons_ne_nil _ _),
        List.getLast?_append_of_ne_nil _ hne]
      exact List.getLast?_cons_of_ne_nil hne
  · rfl

end Settings

/-! ## Values that can be read -/

namespace Value

variable {α : Type} {settings : Settings} {k : Key}

def ReadsAllowed (read : Key → String → Except StyleError α) (k : Key) (v : String) : Prop :=
  (∃ a, read k v = .ok a) ↔ k.Allows v

theorem mem_of_readWord {choices : List (String × α)} {v : String} {a : α}
    (h : readWord choices k v = .ok a) : (v, a) ∈ choices := by
  unfold readWord at h
  split at h
  · next choice hfind =>
      cases h
      have hlabel : choice.1 = v := by simpa using List.find?_some hfind
      rw [← hlabel]
      exact List.mem_of_find?_eq_some hfind
  · cases h

theorem readWord_ok_iff {choices : List (String × α)} {v : String} :
    (∃ a, readWord choices k v = .ok a) ↔ v ∈ choices.map (·.1) := by
  constructor
  · rintro ⟨a, ha⟩
    exact List.mem_map_of_mem (mem_of_readWord ha)
  · intro hmem
    rcases List.mem_map.mp hmem with ⟨choice, hchoice, rfl⟩
    unfold readWord
    cases hfind : choices.find? (·.1 = choice.1) with
    | none => exact absurd (decide_eq_true rfl) (List.find?_eq_none.mp hfind choice hchoice)
    | some found => exact ⟨_, rfl⟩

theorem readColumns_ok_iff {v : String} :
    (∃ n, readColumns k v = .ok n) ↔ ∃ n, 0 < n ∧ Text.integer v.toList = .ok n := by
  unfold readColumns
  cases Text.integer v.toList with
  | error e => simp
  | ok n =>
      by_cases hpos : 0 < n
      · simp [hpos]
      · simp [hpos]

theorem readFlag_ok_iff {v : String} :
    (∃ b, readFlag k v = .ok b) ↔ v ∈ ["true", "false"] := by
  unfold readFlag
  split
  · simp [*]
  · split
    · simp [*]
    · simp [*]

theorem readsAllowed_readWord {choices : List (String × α)} (hnumber : k.takesNumber = false)
    (hwords : k.words = choices.map (·.1)) (v : String) :
    ReadsAllowed (readWord choices) k v := by
  rw [ReadsAllowed, readWord_ok_iff, Key.Allows, hwords, hnumber]
  simp

theorem readsAllowed_readFlag (hnumber : k.takesNumber = false)
    (hwords : k.words = ["true", "false"]) (v : String) : ReadsAllowed readFlag k v := by
  rw [ReadsAllowed, readFlag_ok_iff, Key.Allows, hwords, hnumber]
  simp

theorem readsAllowed_readColumns (hnumber : k.takesNumber = true) {v : String}
    (hv : v ∉ k.words) : ReadsAllowed readColumns k v := by
  rw [ReadsAllowed, readColumns_ok_iff, Key.Allows, hnumber]
  simp [hv]

structure Judges (settings : Settings) (k : Key) (result : Except StyleError α) : Prop where
  error : ∀ e, result = .error e → e.key = k ∧ settings.Refuses k
  ok : ∀ a, result = .ok a → ¬ settings.Refuses k

theorem judges_readIfSet {read : Key → String → Except StyleError α} (hnames : NamesFault read)
    (hread : ∀ v, settings k = some v → ReadsAllowed read k v) :
    Judges settings k (readIfSet settings k read) := by
  unfold readIfSet
  cases hset : settings k with
  | none =>
      constructor
      · rintro e ⟨⟩
      · rintro a - ⟨v, hv, -⟩
        rw [hset] at hv
        cases hv
  | some v =>
      constructor
      · intro e he
        have hfault := map_eq_error_iff.mp he
        refine ⟨(hnames k v e hfault).left, v, hset, fun hallows => ?_⟩
        rcases (hread v hset).mpr hallows with ⟨a, ha⟩
        rw [ha] at hfault
        cases hfault
      · rintro a ha ⟨w, hw, hnot⟩
        rw [hset] at hw
        cases hw
        rcases map_eq_ok_iff.mp ha with ⟨b, hb, -⟩
        exact hnot ((hread v hset).mp ⟨b, hb⟩)

theorem judges_readIndentSize (tabWidth : Option Columns) :
    Judges settings .indentSize (readIndentSize settings tabWidth) := by
  unfold readIndentSize
  split
  · next htab =>
      constructor
      · rintro e ⟨⟩
      · rintro a - ⟨v, hv, hnot⟩
        rw [htab] at hv
        cases hv
        exact hnot (.inl List.mem_cons_self)
  · next htab =>
      refine judges_readIfSet namesFault_readColumns fun v hv => ?_
      refine readsAllowed_readColumns rfl fun hword => ?_
      rw [hv, List.mem_singleton.mp hword] at htab
      exact htab rfl

theorem integer_of_readColumns {v : String} {n : Columns} (h : readColumns k v = .ok n) :
    Text.integer v.toList = .ok (n.count : Int) := by
  unfold readColumns at h
  split at h
  · cases h
  · next m hm =>
      split at h
      · next hpos =>
          cases h
          rw [hm, Int.toNat_of_nonneg (Int.le_of_lt hpos)]
      · cases h

theorem text_of_readFlag {v : String} {b : Bool} (h : readFlag k v = .ok b) :
    (flag b).text = v := by
  unfold readFlag at h
  split at h
  · next hv =>
      cases h
      exact hv.symm
  · split at h
    · next hv =>
        cases h
        exact hv.symm
    · cases h

theorem exists_of_readIfSet {read : Key → String → Except StyleError α} {x : Option α}
    (h : readIfSet settings k read = .ok x) {v : String} (hv : settings k = some v) :
    ∃ a, x = some a ∧ read k v = .ok a := by
  rw [readIfSet, hv] at h
  rcases map_eq_ok_iff.mp h with ⟨a, ha, rfl⟩
  exact ⟨a, rfl, ha⟩

theorem map_label_of_readIfSet {all : List α} {label : α → String} {x : Option α}
    (h : readIfSet settings k (readWord (all.map fun a => (label a, a))) = .ok x) {v : String}
    (hv : settings k = some v) : x.map label = some v := by
  rcases exists_of_readIfSet h hv with ⟨a, rfl, ha⟩
  rcases List.mem_map.mp (mem_of_readWord ha) with ⟨b, -, hb⟩
  cases hb
  rfl

theorem map_text_of_readIfSet {x : Option Bool} (h : readIfSet settings k readFlag = .ok x)
    {v : String} (hv : settings k = some v) : x.map (fun b => (flag b).text) = some v := by
  rcases exists_of_readIfSet h hv with ⟨b, rfl, hb⟩
  exact congrArg some (text_of_readFlag hb)

theorem exists_integer_of_readIfSet {n : Columns}
    (h : readIfSet settings k readColumns = .ok (some n)) :
    ∃ v, settings k = some v ∧ Text.integer v.toList = .ok (n.count : Int) := by
  cases hset : settings k with
  | none =>
      rw [readIfSet_of_none hset] at h
      cases h
  | some v =>
      rcases exists_of_readIfSet h hset with ⟨m, hm, hread⟩
      cases hm
      exact ⟨v, rfl, integer_of_readColumns hread⟩

end Value

/-! ## Validation -/

namespace Settings

variable {s : Settings} {k : Key} {keys : List Key}

theorem FirstRefused.head (h : s.Refuses k) : s.FirstRefused (k :: keys) k :=
  ⟨[], keys, rfl, h, by simp⟩

theorem FirstRefused.tail {k' : Key} (h : s.FirstRefused keys k) (hallowed : ¬ s.Refuses k') :
    s.FirstRefused (k' :: keys) k := by
  rcases h with ⟨before, after, rfl, hrefuses, hbefore⟩
  exact ⟨k' :: before, after, rfl, hrefuses, List.forall_mem_cons.mpr ⟨hallowed, hbefore⟩⟩

/-- Values are validated one after the other, up to the first that is not allowed. -/
theorem FirstRefused.of_bind {α β : Type} {x : Except StyleError α}
    {f : α → Except StyleError β} {e : StyleError} (hx : Value.Judges s k x)
    (h : (x >>= f) = .error e)
    (hmore : ∀ a, f a = .error e → s.FirstRefused keys e.key) :
    s.FirstRefused (k :: keys) e.key := by
  rcases bind_eq_error_iff.mp h with herror | ⟨a, ha, hrest⟩
  · rcases hx.error e herror with ⟨hkey, hrefuses⟩
    rw [hkey]
    exact .head hrefuses
  · exact (hmore a hrest).tail (hx.ok a ha)

end Settings

namespace Style

open Value

variable {settings : Settings} {style : Style}

theorem judges_indentStyle : Judges settings .indentStyle (readIfSet settings .indentStyle
    (readWord (Indent.all.map fun k => (k.label, k)))) :=
  judges_readIfSet (namesFault_readWord _) fun v _ => readsAllowed_readWord rfl rfl v

theorem judges_endOfLine : Judges settings .endOfLine (readIfSet settings .endOfLine
    (readWord (EndOfLine.all.map fun e => (e.label, e)))) :=
  judges_readIfSet (namesFault_readWord _) fun v _ => readsAllowed_readWord rfl rfl v

theorem judges_charset : Judges settings .charset (readIfSet settings .charset
    (readWord (Charset.all.map fun c => (c.label, c)))) :=
  judges_readIfSet (namesFault_readWord _) fun v _ => readsAllowed_readWord rfl rfl v

theorem judges_tabWidth :
    Judges settings .tabWidth (readIfSet settings .tabWidth readColumns) :=
  judges_readIfSet namesFault_readColumns fun _ _ =>
    readsAllowed_readColumns rfl (List.not_mem_nil)

theorem judges_flag {k : Key} (hnumber : k.takesNumber = false)
    (hwords : k.words = ["true", "false"]) : Judges settings k (readIfSet settings k readFlag) :=
  judges_readIfSet namesFault_readFlag fun v _ => readsAllowed_readFlag hnumber hwords v

theorem firstRefused_of_ofSettings_error {e : StyleError} (h : ofSettings settings = .error e) :
    settings.FirstRefused Key.validated e.key := by
  refine .of_bind judges_indentStyle h fun _ h => ?_
  refine .of_bind judges_endOfLine h fun _ h => ?_
  refine .of_bind judges_charset h fun _ h => ?_
  refine .of_bind judges_tabWidth h fun tabWidth h => ?_
  refine .of_bind (judges_readIndentSize tabWidth) h fun _ h => ?_
  refine .of_bind (judges_flag rfl rfl) h fun _ h => ?_
  refine .of_bind (judges_flag rfl rfl) h fun _ h => ?_
  cases h

theorem not_refuses_of_ofSettings (h : ofSettings settings = .ok style) (k : Key) :
    ¬ settings.Refuses k := by
  have hread := readFrom_of_ofSettings h
  cases k with
  | indentStyle => exact judges_indentStyle.ok _ hread.indentStyle
  | indentSize => exact (judges_readIndentSize _).ok _ hread.indentSize
  | tabWidth => exact judges_tabWidth.ok _ hread.tabWidth
  | endOfLine => exact judges_endOfLine.ok _ hread.endOfLine
  | charset => exact judges_charset.ok _ hread.charset
  | trimTrailingWhitespace => exact (judges_flag rfl rfl).ok _ hread.trimTrailingWhitespace
  | insertFinalNewline => exact (judges_flag rfl rfl).ok _ hread.insertFinalNewline

/-- What a style has from the values that its keys are set to. Only an indentation as wide as a
tabulator can be without a rule though its key is set: if no tabulator has a width. -/
structure SetBy (settings : Settings) (style : Style) : Prop where
  unset_iff : ∀ k, style.value? k = none ↔
    settings k = none ∨
      k = .indentSize ∧ settings .indentSize = some "tab" ∧ settings .tabWidth = none
  word : ∀ k v, k.takesNumber = false → settings k = some v →
    (style.value? k).map Value.text = some v
  tab : settings .indentSize = some "tab" → style.indentSize = style.tabWidth
  number : ∀ k n, style.value? k = some (.number n) →
    1 ≤ n ∧ ∃ v, settings k = some v ∧
      (Text.integer v.toList = .ok (n : Int) ∨ k = .indentSize ∧ v = "tab")

namespace ReadFrom

theorem indentSize_eq_tabWidth (h : style.ReadFrom settings)
    (htab : settings .indentSize = some "tab") : style.indentSize = style.tabWidth := by
  have hsize := h.indentSize
  rw [readIndentSize, if_pos htab] at hsize
  exact (Except.ok.inj hsize).symm

theorem unset_iff (h : style.ReadFrom settings) (k : Key) :
    style.value? k = none ↔
      settings k = none ∨
        k = .indentSize ∧ settings .indentSize = some "tab" ∧ settings .tabWidth = none := by
  cases k with
  | indentSize =>
      -- The word stands for the width of a tabulator, which may be missing.
      by_cases htab : settings .indentSize = some "tab"
      · simp [value?, h.indentSize_eq_tabWidth htab, htab, eq_none_iff_of_readIfSet h.tabWidth]
      · have hsize := h.indentSize
        rw [readIndentSize, if_neg htab] at hsize
        simp [value?, htab, eq_none_iff_of_readIfSet hsize]
  | indentStyle => simp [value?, eq_none_iff_of_readIfSet h.indentStyle]
  | tabWidth => simp [value?, eq_none_iff_of_readIfSet h.tabWidth]
  | endOfLine => simp [value?, eq_none_iff_of_readIfSet h.endOfLine]
  | charset => simp [value?, eq_none_iff_of_readIfSet h.charset]
  | trimTrailingWhitespace =>
      simp [value?, eq_none_iff_of_readIfSet h.trimTrailingWhitespace]
  | insertFinalNewline => simp [value?, eq_none_iff_of_readIfSet h.insertFinalNewline]

theorem word (h : style.ReadFrom settings) (k : Key) (v : String)
    (hnumber : k.takesNumber = false) (hv : settings k = some v) :
    (style.value? k).map Value.text = some v := by
  cases k with
  | indentSize => cases hnumber
  | tabWidth => cases hnumber
  | indentStyle =>
      rw [value?, Option.map_map]
      exact map_label_of_readIfSet h.indentStyle hv
  | endOfLine =>
      rw [value?, Option.map_map]
      exact map_label_of_readIfSet h.endOfLine hv
  | charset =>
      rw [value?, Option.map_map]
      exact map_label_of_readIfSet h.charset hv
  | trimTrailingWhitespace =>
      rw [value?, Option.map_map]
      exact map_text_of_readIfSet h.trimTrailingWhitespace hv
  | insertFinalNewline =>
      rw [value?, Option.map_map]
      exact map_text_of_readIfSet h.insertFinalNewline hv

theorem number (h : style.ReadFrom settings) (k : Key) (n : Nat)
    (hvalue : style.value? k = some (.number n)) :
    1 ≤ n ∧ ∃ v, settings k = some v ∧
      (Text.integer v.toList = .ok (n : Int) ∨ k = .indentSize ∧ v = "tab") := by
  cases k with
  | indentSize =>
      rcases Option.map_eq_some_iff.mp hvalue with ⟨columns, hcolumns, heq⟩
      cases heq
      refine ⟨columns.pos, ?_⟩
      by_cases htab : settings .indentSize = some "tab"
      · exact ⟨"tab", htab, .inr ⟨rfl, rfl⟩⟩
      · have hsize := h.indentSize
        rw [readIndentSize, if_neg htab, hcolumns] at hsize
        rcases exists_integer_of_readIfSet hsize with ⟨v, hv, hinteger⟩
        exact ⟨v, hv, .inl hinteger⟩
  | tabWidth =>
      rcases Option.map_eq_some_iff.mp hvalue with ⟨columns, hcolumns, heq⟩
      cases heq
      have hwidth := h.tabWidth
      rw [hcolumns] at hwidth
      rcases exists_integer_of_readIfSet hwidth with ⟨v, hv, hinteger⟩
      exact ⟨columns.pos, v, hv, .inl hinteger⟩
  | indentStyle => simp [value?] at hvalue
  | endOfLine => simp [value?] at hvalue
  | charset => simp [value?] at hvalue
  | trimTrailingWhitespace => simp [value?] at hvalue
  | insertFinalNewline => simp [value?] at hvalue

theorem setBy (h : style.ReadFrom settings) : style.SetBy settings where
  unset_iff := h.unset_iff
  word := h.word
  tab := h.indentSize_eq_tabWidth
  number := h.number

end ReadFrom

theorem exists_ofSettings_iff :
    (∃ style, ofSettings settings = .ok style) ↔ ∀ k, ¬ settings.Refuses k := by
  constructor
  · rintro ⟨style, h⟩
    exact not_refuses_of_ofSettings h
  · intro hallowed
    rw [exists_ok_iff]
    rintro ⟨e, he⟩
    rcases firstRefused_of_ofSettings_error he with ⟨_, _, -, hrefuses, -⟩
    exact hallowed e.key hrefuses

/-! ## Properties -/

/-- The style of some properties, or the error about them, is a function of the effect of the
last pair that names each key. So nothing else counts: not the order of pairs with different
names, no pair whose name no key has, and no pair that a later one of the same name overrides.
If every last value is allowed the style is set by them, and if not, the error is about the
first that is not allowed in the order of validation. -/
theorem ofProperties_by_lastEffective (ps : List (String × String)) :
    ofProperties ps = ofSettings (Settings.lastEffective ps) ∧
      (∀ qs, (∀ name, qs.filter (Settings.hasName name) = ps.filter (Settings.hasName name)) →
        ofProperties qs = ofProperties ps) ∧
      (∀ qs, qs.filter Settings.isKnown = ps.filter Settings.isKnown →
        ofProperties qs = ofProperties ps) ∧
      (∀ before p after, ps = before ++ p :: after →
        (∃ q ∈ after, normalize q.1 = normalize p.1) →
        ofProperties (before ++ after) = ofProperties ps) ∧
      (∀ style, ofProperties ps = .ok style → style.SetBy (Settings.lastEffective ps)) ∧
      (∀ e, ofProperties ps = .error e →
        Settings.FirstRefused (Settings.lastEffective ps) Key.validated e.key ∧
          Settings.lastEffective ps e.key = some e.value) ∧
      ((∃ style, ofProperties ps = .ok style) ↔
        ∀ k, ¬ Settings.Refuses (Settings.lastEffective ps) k) := by
  have hsettings : ∀ ps, ofProperties ps = ofSettings (Settings.lastEffective ps) := by
    intro ps
    rw [ofProperties, Settings.ofProperties_eq_lastEffective]
  have hsame : ∀ qs, (∀ k, Settings.lastEffective qs k = Settings.lastEffective ps k) →
      ofProperties qs = ofProperties ps := by
    intro qs h
    rw [hsettings, hsettings, funext h]
  refine ⟨hsettings ps, ?_, ?_, ?_, ?_, ?_, ?_⟩
  · intro qs h
    exact hsame qs fun k => by rw [Settings.lastEffective, h, Settings.lastEffective]
  · intro qs h
    refine hsame qs fun k => ?_
    rw [Settings.lastEffective, Settings.filter_hasName_eq, h, ← Settings.filter_hasName_eq,
      Settings.lastEffective]
  · rintro before p after rfl hlater
    refine hsame _ fun k => ?_
    rw [Settings.lastEffective, Settings.lastEffective, Settings.filter_hasName_getLast? hlater]
  · intro style h
    rw [hsettings] at h
    exact (readFrom_of_ofSettings h).setBy
  · intro e h
    rw [hsettings] at h
    exact ⟨firstRefused_of_ofSettings_error h, setting_of_ofSettings_error h⟩
  · rw [hsettings]
    exact exists_ofSettings_iff

def overriddenProperties : List (String × String) :=
  [("tab_width", "no"), ("indent_size", "TAB "), (" Tab_Width", "4"), ("color", "red")]

def refusedProperties : List (String × String) :=
  [("Indent_Size", "-1"), ("charset", "Latin-9"), ("charset ", "latin-8"), ("Tab_Width", "unset")]

theorem ofProperties_by_lastEffective_of_spellings :
    (∃ style, ofProperties overriddenProperties = .ok style ∧
      style.SetBy (Settings.lastEffective overriddenProperties)) ∧
      ofProperties ([("tab_width", "no")] ++
          (" Tab_Width", "4") :: ("indent_size", "TAB ") :: [("color", "red")]) =
        ofProperties overriddenProperties ∧
      ofProperties [("tab_width", "no"), ("indent_size", "TAB "), (" Tab_Width", "4")] =
        ofProperties overriddenProperties ∧
      ofProperties ([] ++ [("indent_size", "TAB "), (" Tab_Width", "4"), ("color", "red")]) =
        ofProperties overriddenProperties ∧
      ∃ e, ofProperties refusedProperties = .error e ∧
        Settings.FirstRefused (Settings.lastEffective refusedProperties) Key.validated e.key ∧
        Settings.lastEffective refusedProperties e.key = some "latin-8" := by
  have hnames : normalize ("indent_size", "TAB ").1 ≠ normalize (" Tab_Width", "4").1 := by
    decide +kernel
  have hstyle : ofProperties overriddenProperties =
      .ok { indentSize := some ⟨4, by decide⟩, tabWidth := some ⟨4, by decide⟩ } := by
    decide +kernel
  have hrefused : ofProperties refusedProperties =
      .error (.notAmong .charset "latin-8" (Charset.all.map (·.label))) := by
    decide +kernel
  rcases ofProperties_by_lastEffective overriddenProperties with
    ⟨-, hrearranged, hknown, hoverridden, hset, -, -⟩
  rcases ofProperties_by_lastEffective refusedProperties with ⟨-, -, -, -, -, herror, -⟩
  refine ⟨?_, ?_, ?_, ?_, ?_⟩
  · exact ⟨_, hstyle, hset _ hstyle⟩
  · exact hrearranged _ fun name =>
      (Settings.filter_hasName_swap hnames [("tab_width", "no")] [("color", "red")] name).symm
  · exact hknown _ (by decide +kernel)
  · exact hoverridden [] ("tab_width", "no") _ rfl ⟨(" Tab_Width", "4"), by decide +kernel⟩
  · exact ⟨_, hrefused, herror _ hrefused⟩

end Style
end FileStyle
