import FileStyle.Proofs.LineGrammar
import FileStyle.Proofs.Merging
import FileStyle.Proofs.RootBarrier
import FileStyle.Proofs.Utf8Sequence
import Mathlib.Data.List.Forall2

/-!
# The grammar of style files

A style file is read if every line says something, and the first line that is spoiled is what
it is refused for. What the lines say makes the sheet: every header starts a section, which has
the pairs up to the next header, and the last pair about the root decides whether there is one.
-/

namespace FileStyle

/-! ## Properties by their keys and values -/

namespace Properties

theorem get?_ofList (pairs : List (String × String)) (key : String) :
    (ofList pairs).get? key = get? pairs.reverse key := by
  induction pairs using List.reverseRecOn with
  | nil => rfl
  | append_singleton pairs pair ih =>
      rw [ofList_append_singleton, get?_put, ih, List.reverse_append, List.reverse_singleton,
        List.singleton_append, get?_cons]
      simp only [eq_comm]

theorem nodup_eraseDups (keys : List String) : keys.eraseDups.Nodup := by
  induction keys using List.reverseRecOn with
  | nil => exact List.nodup_nil
  | append_singleton keys key ih =>
      rw [eraseDups_append_singleton]
      split
      · exact ih
      · next hfresh =>
          refine List.nodup_append.mpr ⟨ih, by simp, ?_⟩
          intro other hother new hnew heq
          rw [heq, List.mem_singleton.mp hnew, List.mem_eraseDups] at hother
          exact hfresh hother

theorem eq_of_get?_eq {ps qs : Properties} (hkeys : ps.map (·.1) = qs.map (·.1))
    (hnodup : (ps.map (·.1)).Nodup) (hget : ∀ key, ps.get? key = qs.get? key) : ps = qs := by
  induction ps generalizing qs with
  | nil => exact (List.map_eq_nil_iff.mp hkeys.symm).symm
  | cons p ps ih =>
      cases qs with
      | nil => cases hkeys
      | cons q qs =>
          rcases p with ⟨k, v⟩
          rcases q with ⟨k', v'⟩
          injection hkeys with hfirst hkeys
          change k = k' at hfirst
          subst hfirst
          rcases List.nodup_cons.mp hnodup with ⟨hfresh, hnodup⟩
          have hvalue := hget k
          rw [get?_cons, get?_cons, if_pos rfl, if_pos rfl] at hvalue
          cases hvalue
          have hrest : ∀ key, get? ps key = get? qs key := by
            intro key
            by_cases hkey : k = key
            · subst hkey
              rw [get?_of_not_mem hfresh, get?_of_not_mem (hkeys ▸ hfresh)]
            · have hboth := hget key
              rw [get?_cons, get?_cons, if_neg hkey, if_neg hkey] at hboth
              exact hboth
          rw [ih hkeys hnodup hrest]

end Properties

/-! ## What the lines of a file say -/

namespace StyleSheet

def numberedFrom (number : Nat) (raws : List (List Char)) : List (Nat × List Char) :=
  (raws.zipIdx number).map fun p => (p.2, lineText p.2 p.1)

def numbered (text : List Char) : List (Nat × List Char) :=
  numberedFrom 1 (Text.lines text)

theorem numberedFrom_cons (number : Nat) (raw : List Char) (raws : List (List Char)) :
    numberedFrom number (raw :: raws) =
      (number, lineText number raw) :: numberedFrom (number + 1) raws :=
  rfl

def Say (texts : List (Nat × List Char)) (ls : List (Nat × Line)) : Prop :=
  List.Forall₂ (fun p l => p.1 = l.1 ∧ Line.Tells p.2 l.2) texts ls

theorem Say.exists_tells {texts : List (Nat × List Char)} {ls : List (Nat × Line)}
    (h : Say texts ls) {p : Nat × List Char} (hp : p ∈ texts) : ∃ line, Line.Tells p.2 line := by
  induction h with
  | nil => cases hp
  | @cons _ l _ _ hfirst _ ih =>
      rcases List.mem_cons.mp hp with rfl | hrest
      · exact ⟨l.2, hfirst.right⟩
      · exact ih hrest

def SpoiledAt (texts : List (Nat × List Char)) (number : Nat) (d : LineDefect) : Prop :=
  ∃ before s after, texts = before ++ (number, s) :: after ∧ d.Spoils s ∧
    ∀ p ∈ before, ¬ ∃ other : LineDefect, other.Spoils p.2

theorem exists_say_or_spoiledAt (texts : List (Nat × List Char)) :
    (∃ ls, Say texts ls) ∨ ∃ number d, SpoiledAt texts number d := by
  induction texts with
  | nil => exact .inl ⟨[], .nil⟩
  | cons p texts ih =>
      rcases Line.exists_tells_or_spoils p.2 with ⟨line, hline⟩ | ⟨d, hd⟩
      · have hsound : ¬ ∃ other : LineDefect, other.Spoils p.2 := by
          rintro ⟨other, hother⟩
          exact Line.not_spoils_of_tells hline other hother
        rcases ih with ⟨ls, hls⟩ | ⟨number, d, before, s, after, rfl, hd, hbefore⟩
        · exact .inl ⟨(p.1, line) :: ls, .cons ⟨rfl, hline⟩ hls⟩
        · exact .inr ⟨number, d, p :: before, s, after, rfl, hd,
            List.forall_mem_cons.mpr ⟨hsound, hbefore⟩⟩
      · exact .inr ⟨p.1, d, [], p.2, texts, rfl, hd, by simp⟩

/-! ## What they make -/

structure Block where
  line : Nat
  name : String
  pairs : List (String × String)

def ownPairs : List (Nat × Line) → List (String × String)
  | [] => []
  | (_, .ignored) :: ls => ownPairs ls
  | (_, .header _) :: _ => []
  | (_, .pair key value) :: ls =>
      if key = "root" then ownPairs ls else (key, value) :: ownPairs ls

def blocks : List (Nat × Line) → List Block
  | [] => []
  | (number, .header name) :: ls => ⟨number, name, ownPairs ls⟩ :: blocks ls
  | (_, .ignored) :: ls => blocks ls
  | (_, .pair _ _) :: ls => blocks ls

/-- A section that is made of a block. Each key has the value of its last pair, and the keys
are in the order in which they first come. -/
structure MadeOf (s : Section) (b : Block) : Prop where
  line : s.line = b.line
  name : s.name = b.name
  keys : s.properties.map (·.1) = (b.pairs.map (·.1)).eraseDups
  value : ∀ key, s.properties.get? key = Properties.get? b.pairs.reverse key

structure Describes (ls : List (Nat × Line)) (sheet : StyleSheet) : Prop where
  sections : List.Forall₂ MadeOf sheet.sections (blocks ls)
  root : sheet.root = (ls.filterMap (·.2.root?)).getLastD false

theorem madeOf_ofList (b : Block) : MadeOf ⟨b.name, b.line, Properties.ofList b.pairs⟩ b where
  line := rfl
  name := rfl
  keys := Properties.keys_ofList b.pairs
  value := Properties.get?_ofList b.pairs

theorem MadeOf.unique {s s' : Section} {b : Block} (h : MadeOf s b) (h' : MadeOf s' b) :
    s = s' := by
  rcases s with ⟨name, line, ps⟩
  rcases s' with ⟨name', line', ps'⟩
  have hline : line = line' := h.line.trans h'.line.symm
  have hname : name = name' := h.name.trans h'.name.symm
  have hnodup : (ps.map (·.1)).Nodup := by
    rw [h.keys]
    exact Properties.nodup_eraseDups _
  have hproperties : ps = ps' :=
    Properties.eq_of_get?_eq (h.keys.trans h'.keys.symm) hnodup
      fun key => (h.value key).trans (h'.value key).symm
  rw [hline, hname, hproperties]

theorem Describes.unique {ls : List (Nat × Line)} {sheet sheet' : StyleSheet}
    (h : Describes ls sheet) (h' : Describes ls sheet') : sheet = sheet' := by
  have hsections : ∀ {ss ss' : List Section} {bs : List Block}, List.Forall₂ MadeOf ss bs →
      List.Forall₂ MadeOf ss' bs → ss = ss' := by
    intro ss ss' bs hss hss'
    induction hss generalizing ss' with
    | nil =>
        cases hss'
        rfl
    | cons hs _ ih =>
        cases hss' with
        | cons hs' hrest => rw [hs.unique hs', ih hrest]
  rcases sheet with ⟨root, ss⟩
  rcases sheet' with ⟨root', ss'⟩
  have hroot : root = root' := h.root.trans h'.root.symm
  have hss : ss = ss' := hsections h.sections h'.sections
  rw [hroot, hss]

/-! ## Reading lines -/

def afterLines (sheet : StyleSheet) (ls : List (Nat × Line)) : StyleSheet :=
  ls.foldl (fun sheet l => sheet.addLine l.1 l.2) sheet

theorem addLines_of_say {number : Nat} {raws : List (List Char)} {ls : List (Nat × Line)}
    (h : Say (numberedFrom number raws) ls) (sheet : StyleSheet) :
    sheet.addLines number raws = .ok (sheet.afterLines ls) := by
  induction raws generalizing sheet number ls with
  | nil =>
      cases h
      rfl
  | cons raw raws ih =>
      rw [numberedFrom_cons] at h
      cases h with
      | @cons _ l _ ls hfirst hrest =>
          rcases l with ⟨n, line⟩
          rcases hfirst with ⟨hnumber, hline⟩
          change number = n at hnumber
          rw [addLines, Line.read_of_tells hline]
          show (sheet.addLine number line).addLines (number + 1) raws = _
          rw [ih hrest, hnumber]
          rfl

theorem addLines_of_spoiledAt {number n : Nat} {raws : List (List Char)} {d : LineDefect}
    (h : SpoiledAt (numberedFrom number raws) n d) (sheet : StyleSheet) :
    sheet.addLines number raws = .error ⟨n, d⟩ := by
  induction raws generalizing sheet number with
  | nil =>
      rcases h with ⟨before, s, after, hcut, -⟩
      cases before with
      | nil => cases hcut
      | cons p before => cases hcut
  | cons raw raws ih =>
      rcases h with ⟨before, s, after, hcut, hd, hbefore⟩
      rw [numberedFrom_cons] at hcut
      cases before with
      | nil =>
          cases hcut
          rw [addLines, Line.read_of_spoils hd]
      | cons p before =>
          rw [List.cons_append] at hcut
          injection hcut with hfirst hrest
          subst hfirst
          have hall := List.forall_mem_cons.mp hbefore
          rcases Line.exists_tells_or_spoils (lineText number raw) with
            ⟨line, hline⟩ | hspoiled
          · rw [addLines, Line.read_of_tells hline]
            exact ih ⟨before, s, after, hrest, hd, hall.right⟩ _
          · exact absurd hspoiled hall.left

theorem root_afterLines (sheet : StyleSheet) (ls : List (Nat × Line)) :
    (sheet.afterLines ls).root = (ls.filterMap (·.2.root?)).getLastD sheet.root := by
  induction ls generalizing sheet with
  | nil => rfl
  | cons l ls ih =>
      show ((sheet.addLine l.1 l.2).afterLines ls).root = _
      rw [ih, root_addLine, List.filterMap_cons]
      cases l.2.root? with
      | none => rfl
      | some said => rw [List.getLastD_cons]; rfl

def withPairs (pairs : List (String × String)) : List Section → List Section
  | [] => []
  | current :: earlier =>
      { current with properties := current.properties.putAll pairs } :: earlier

/-- The pairs before the first header go to the section that is open, if one is, and every
header starts a section with its own pairs. -/
theorem sections_afterLines (sheet : StyleSheet) (ls : List (Nat × Line)) :
    (sheet.afterLines ls).sections.reverse =
      (withPairs (ownPairs ls) sheet.sections).reverse ++
        (blocks ls).map fun b => ⟨b.name, b.line, Properties.ofList b.pairs⟩ := by
  have hnone : ∀ ss : List Section, withPairs [] ss = ss := by
    intro ss
    cases ss with
    | nil => rfl
    | cons current earlier => rfl
  induction ls generalizing sheet with
  | nil =>
      show sheet.sections.reverse = (withPairs [] sheet.sections).reverse ++ []
      rw [hnone, List.append_nil]
  | cons l ls ih =>
      rcases l with ⟨number, line⟩
      show ((sheet.addLine number line).afterLines ls).sections.reverse = _
      rw [ih]
      cases line with
      | ignored => rfl
      | header name =>
          rw [addLine, ownPairs, blocks, hnone, withPairs, List.reverse_cons,
            List.append_assoc]
          rfl
      | pair key value =>
          rw [addLine, ownPairs, blocks]
          by_cases hkey : key = "root"
          · rw [if_pos hkey, if_pos hkey]
          · rw [if_neg hkey, if_neg hkey]
            cases hsections : sheet.sections with
            | nil => simp [hsections, withPairs]
            | cons current earlier => rfl

theorem parse_of_say {text : List Char} {ls : List (Nat × Line)} (h : Say (numbered text) ls) :
    ∃ sheet, parse text = .ok sheet ∧ Describes ls sheet := by
  rw [parse, addLines_of_say h]
  refine ⟨_, rfl, ?_, root_afterLines {} ls⟩
  show List.Forall₂ MadeOf (afterLines {} ls).sections.reverse (blocks ls)
  rw [sections_afterLines]
  show List.Forall₂ MadeOf ((blocks ls).map _) (blocks ls)
  rw [List.forall₂_map_left_iff, List.forall₂_same]
  exact fun b _ => madeOf_ofList b

theorem parse_of_spoiledAt {text : List Char} {n : Nat} {d : LineDefect}
    (h : SpoiledAt (numbered text) n d) : parse text = .error ⟨n, d⟩ := by
  rw [parse, addLines_of_spoiledAt h]
  rfl

/-! ## Reading a file -/

theorem parse_eq_error_iff {text : List Char} {n : Nat} {d : LineDefect} :
    parse text = .error ⟨n, d⟩ ↔ SpoiledAt (numbered text) n d := by
  refine ⟨?_, parse_of_spoiledAt⟩
  intro h
  rcases exists_say_or_spoiledAt (numbered text) with ⟨ls, hls⟩ | ⟨m, other, hspoiled⟩
  · rcases parse_of_say hls with ⟨sheet, hsheet, -⟩
    rw [h] at hsheet
    cases hsheet
  · rw [parse_of_spoiledAt hspoiled] at h
    cases h
    exact hspoiled

theorem parse_eq_ok_iff {text : List Char} {sheet : StyleSheet} :
    parse text = .ok sheet ↔ ∃ ls, Say (numbered text) ls ∧ Describes ls sheet := by
  constructor
  · intro h
    rcases exists_say_or_spoiledAt (numbered text) with ⟨ls, hls⟩ | ⟨n, d, hspoiled⟩
    · rcases parse_of_say hls with ⟨other, hother, hdescribes⟩
      rw [h] at hother
      cases hother
      exact ⟨ls, hls, hdescribes⟩
    · rw [parse_of_spoiledAt hspoiled] at h
      cases h
  · rintro ⟨ls, hls, hdescribes⟩
    rcases parse_of_say hls with ⟨other, hother, hdescribes'⟩
    rw [hother, hdescribes.unique hdescribes']

theorem exists_spoiledAt_iff (texts : List (Nat × List Char)) :
    (∃ n d, SpoiledAt texts n d) ↔ ∃ p ∈ texts, ∃ d : LineDefect, d.Spoils p.2 := by
  constructor
  · rintro ⟨n, d, before, s, after, rfl, hd, -⟩
    exact ⟨(n, s), by simp, d, hd⟩
  · rintro ⟨p, hp, d, hd⟩
    rcases exists_say_or_spoiledAt texts with ⟨ls, hls⟩ | hspoiled
    · rcases hls.exists_tells hp with ⟨line, hline⟩
      exact absurd hd (Line.not_spoils_of_tells hline d)
    · exact hspoiled

end StyleSheet

theorem LineDefect.message_injective : Function.Injective LineDefect.message := by
  intro d d' h
  cases d <;> cases d' <;> simp_all [message]

namespace StyleFile

theorem read_encode_eq_error_iff {path : Path} {text : List Char} {e : ResolveError} :
    StyleFile.read path (text.flatMap Utf8.encode) = .error e ↔
      ∃ n d, StyleSheet.SpoiledAt (StyleSheet.numbered text) n d ∧ e = .malformed path ⟨n, d⟩ := by
  rw [read, Utf8.text_encode]
  dsimp only
  cases hparse : StyleSheet.parse text with
  | ok sheet =>
      constructor
      · intro h
        cases h
      · rintro ⟨n, d, hspoiled, -⟩
        rw [StyleSheet.parse_of_spoiledAt hspoiled] at hparse
        cases hparse
  | error fault =>
      rcases fault with ⟨n, d⟩
      have hspoiled := StyleSheet.parse_eq_error_iff.mp hparse
      constructor
      · intro h
        cases h
        exact ⟨n, d, hspoiled, rfl⟩
      · rintro ⟨m, other, hother, rfl⟩
        rw [StyleSheet.parse_of_spoiledAt hother] at hparse
        cases hparse
        rfl

end StyleFile

namespace StyleSheet

/-- A text is refused just when one of its lines is spoiled, and for the first one. The message
names the path of the file, the number of the line and which of the three defects it has.
Otherwise the sheet is what the lines make. -/
theorem parse_follows_grammar (text : List Char) :
    ((∃ e, parse text = .error e) ↔ ∃ p ∈ numbered text, ∃ d : LineDefect, d.Spoils p.2) ∧
      (∀ n d, parse text = .error ⟨n, d⟩ ↔ SpoiledAt (numbered text) n d) ∧
      (∀ path e, StyleFile.read path (text.flatMap Utf8.encode) = .error e ↔
        ∃ n d, SpoiledAt (numbered text) n d ∧ e = .malformed path ⟨n, d⟩) ∧
      (∀ path n d, (ResolveError.malformed path ⟨n, d⟩).message =
        "Failed to parse " ++ path.text ++ ":" ++ Text.decimal n ++ ": " ++ d.message) ∧
      Function.Injective LineDefect.message ∧
      ∀ sheet, parse text = .ok sheet ↔ ∃ ls, Say (numbered text) ls ∧ Describes ls sheet := by
  refine ⟨?_, fun n d => parse_eq_error_iff, fun path e => StyleFile.read_encode_eq_error_iff,
    fun path n d => rfl, LineDefect.message_injective, fun sheet => parse_eq_ok_iff⟩
  rw [← exists_spoiledAt_iff]
  constructor
  · rintro ⟨⟨n, d⟩, h⟩
    exact ⟨n, d, parse_eq_error_iff.mp h⟩
  · rintro ⟨n, d, h⟩
    exact ⟨_, parse_of_spoiledAt h⟩

end StyleSheet
end FileStyle
