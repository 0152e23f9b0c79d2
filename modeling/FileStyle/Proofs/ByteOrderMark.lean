import FileStyle.Proofs.ForeseenErrors
import FileStyle.Proofs.SheetGrammar

/-!
# Byte-order marks before style files

A byte-order mark in front of a style file is dropped from its first line, but only after
the blanks at the ends of the line: the blanks behind the mark stay. They do no harm to a
pair, whose key is trimmed, and a blank line is left blank; but a header or a comment behind
them is no longer seen at the start of the line, which is then read as a pair. No pair before
the first section counts but the root's, so such a line is passed over if it has a separator,
and the file is refused for it if it has none.
-/

namespace FileStyle

/-! ## Trimming around a mark -/

namespace Text

theorem isBlank_mark : isBlank '\ufeff' = false := by
  decide

theorem lines_mark (text : List Char) :
    lines ('\ufeff' :: text) =
      ('\ufeff' :: (lines text).headD []) :: (lines text).tail := by
  have hunbroken : ['\ufeff'].any isLineBreak = false := by decide
  exact lines_append_of_unbroken hunbroken (List.cons_ne_nil _ _) text

theorem trimRight_append {s : List Char} (h : trimRight s ≠ []) (front : List Char) :
    trimRight (front ++ s) = front ++ trimRight s := by
  have hne : s.reverse.dropWhile isBlank ≠ [] := by simpa [trimRight] using h
  rw [trimRight, List.reverse_append, List.dropWhile_append,
    if_neg (by simpa using hne), List.reverse_append, List.reverse_reverse]
  rfl

theorem trimRight_of_isBlank {s : List Char} (h : ∀ c ∈ s, isBlank c = true) :
    trimRight s = [] := by
  rw [trimRight, List.reverse_eq_nil_iff, List.dropWhile_eq_nil_iff]
  intro c hc
  exact h c (List.mem_reverse.mp hc)

theorem trim_append_of_isBlank {blanks : List Char} (h : ∀ c ∈ blanks, isBlank c = true)
    (s : List Char) : trim (blanks ++ s) = trim s := by
  rw [trim, trimLeft, List.dropWhile_append_of_pos h]
  rfl

theorem exists_blanks_of_trimRight {s : List Char} (h : trim s ≠ []) :
    ∃ blanks, (∀ c ∈ blanks, isBlank c = true) ∧ trimRight s = blanks ++ trim s := by
  refine ⟨s.takeWhile isBlank, fun c hc => List.mem_takeWhile_imp hc, ?_⟩
  have hcut : s.takeWhile isBlank ++ trimLeft s = s := List.takeWhile_append_dropWhile
  calc
    trimRight s = trimRight (s.takeWhile isBlank ++ trimLeft s) := by rw [hcut]
    _ = s.takeWhile isBlank ++ trim s := trimRight_append h _

theorem mem_trim_iff {c : Char} (hc : isBlank c = false) {s : List Char} :
    c ∈ trim s ↔ c ∈ s := by
  refine ⟨mem_of_mem_trim, fun h => ?_⟩
  have hkept : ∀ t : List Char, c ∈ t → c ∈ t.dropWhile isBlank := by
    intro t ht
    rw [← List.takeWhile_append_dropWhile (p := isBlank) (l := t)] at ht
    rcases List.mem_append.mp ht with hblank | hrest
    · rw [List.mem_takeWhile_imp hblank] at hc
      cases hc
    · exact hrest
  exact List.mem_reverse.mpr (hkept _ (List.mem_reverse.mpr (hkept s h)))

theorem trim_cons_of_not_blank {c : Char} (hc : isBlank c = false) (s : List Char) :
    trim (c :: s) = c :: trimRight s := by
  rw [trim, trimLeft_cons_of_not_blank hc]
  by_cases hnil : trimRight s = []
  · have hblank := hnil
    rw [trimRight, List.reverse_eq_nil_iff, List.dropWhile_eq_nil_iff] at hblank
    rw [hnil, trimRight, List.reverse_cons, List.dropWhile_append_of_pos hblank]
    simp [hc]
  · exact trimRight_append hnil [c]

end Text

theorem Line.readPair_of_blanks {blanks : List Char}
    (h : ∀ c ∈ blanks, Text.isBlank c = true) (s : List Char) :
    readPair (blanks ++ s) = readPair s := by
  have hequals : '=' ∉ blanks := not_mem_of_blank h '=' (by simp)
  have hcolon : ':' ∉ blanks := not_mem_of_blank h ':' (by simp)
  by_cases hnone : '=' ∉ s ∧ ':' ∉ s
  · have hboth : '=' ∉ blanks ++ s ∧ ':' ∉ blanks ++ s := by simp [hequals, hcolon, hnone]
    rw [readPair_of_not_mem hnone, readPair_of_not_mem hboth]
  · rcases exists_cut_of_separator hnone with ⟨before, separator, after, rfl, hbefore, hseparator⟩
    have hboth : '=' ∉ blanks ++ before ∧ ':' ∉ blanks ++ before := by
      simp [hequals, hcolon, hbefore]
    have hall : blanks.all Text.isBlank = true := List.all_eq_true.mpr h
    rw [← List.append_assoc, readPair_append hboth hseparator, readPair_append hbefore hseparator,
      List.all_append, hall, Bool.true_and, Text.trim_append_of_isBlank h]

namespace StyleSheet

/-! ## The first line -/

def startSigns : List Char :=
  ['[', '#', ';', '\ufeff']

theorem not_isBlank_of_startSign {c : Char} (h : c ∈ startSigns) : Text.isBlank c = false := by
  have hall : startSigns.all (fun c => !Text.isBlank c) = true := by decide
  simpa using List.all_eq_true.mp hall c h

theorem isLower_of_startSign {c : Char} (h : c ∈ startSigns) : Text.IsLower c := by
  have hall : startSigns.all
      (fun c => c != '\u03a3' && c != '\u0130' && Text.lowercaseLetter c == c) = true := by
    decide +kernel
  simpa [Text.IsLower, and_assoc] using List.all_eq_true.mp hall c h

/-- The mark hides how the line starts: there are blanks, and behind them a header, a comment
or a further mark. -/
def HidesStart (raw : List Char) : Prop :=
  (∃ c ∈ raw.head?, Text.isBlank c = true) ∧ ∃ c ∈ (Text.trim raw).head?, c ∈ startSigns

theorem lineText_mark (raw : List Char) :
    lineText 1 ('\ufeff' :: raw) = (Text.trimRight raw).dropWhile (· = '\ufeff') := by
  rw [lineText, if_pos rfl, Text.trim_cons_of_not_blank Text.isBlank_mark]
  simp

theorem read_lineText_mark_of_blank {raw : List Char} {first : Char}
    (hfirst : raw.head? = some first) (hblank : Text.isBlank first = true)
    (hne : Text.trim raw ≠ []) :
    Line.read (lineText 1 ('\ufeff' :: raw)) = Line.readPair (Text.trim raw) := by
  rcases Text.exists_blanks_of_trimRight hne with ⟨blanks, hblanks, hright⟩
  have hhead : (Text.trimRight raw).head? = some first := by
    rcases Text.trimRight_prefix raw with ⟨rest, hrest⟩
    rw [← hrest, List.head?_append_of_ne_nil _ (by simp [hright, hne])] at hfirst
    exact hfirst
  have hsigns : ∀ c ∈ startSigns, first ≠ c := by
    intro c hc heq
    rw [heq, not_isBlank_of_startSign hc] at hblank
    cases hblank
  rcases List.head?_eq_some_iff.mp hhead with ⟨rest, hrest⟩
  have hkept : (Text.trimRight raw).dropWhile (· = '\ufeff') = Text.trimRight raw := by
    rw [hrest, List.dropWhile_cons_of_neg (by simpa using hsigns '\ufeff' (by decide))]
  have hstart : ∀ c ∈ (Text.trimRight raw).head?, c ≠ '#' ∧ c ≠ ';' ∧ c ≠ '[' := by
    rw [hhead]
    rintro c ⟨rfl⟩
    exact ⟨hsigns '#' (by decide), hsigns ';' (by decide), hsigns '[' (by decide)⟩
  rw [lineText_mark, hkept, Line.read_of_start (by simp [hrest]) hstart, hright,
    Line.readPair_of_blanks hblanks]

theorem read_lineText_mark {raw : List Char} (h : ¬ HidesStart raw) :
    Line.read (lineText 1 ('\ufeff' :: raw)) = Line.read (lineText 1 raw) := by
  by_cases hblank : ∃ c ∈ raw.head?, Text.isBlank c = true
  · by_cases hnil : Text.trim raw = []
    · rw [lineText_mark, Text.trimRight_of_isBlank (Text.trim_eq_nil_iff.mp hnil), lineText,
        if_pos rfl, hnil]
    · rcases hblank with ⟨first, hfirst, hblank⟩
      have hplain : ∀ c ∈ (Text.trim raw).head?, c ∉ startSigns :=
        fun c hc hmem => h ⟨⟨first, hfirst, hblank⟩, c, hc, hmem⟩
      rcases List.exists_cons_of_ne_nil hnil with ⟨c, rest, htrim⟩
      have hc : c ≠ '[' ∧ c ≠ '#' ∧ c ≠ ';' ∧ c ≠ '\ufeff' := by
        simpa [startSigns] using hplain c (by rw [htrim]; rfl)
      have hkept : lineText 1 raw = Text.trim raw := by
        rw [lineText, if_pos rfl, htrim,
          List.dropWhile_cons_of_neg (by simpa using hc.right.right.right)]
      have hstart : ∀ d ∈ (Text.trim raw).head?, d ≠ '#' ∧ d ≠ ';' ∧ d ≠ '[' := by
        rw [htrim]
        rintro d ⟨rfl⟩
        exact ⟨hc.right.left, hc.right.right.left, hc.left⟩
      rw [read_lineText_mark_of_blank hfirst hblank hnil, hkept, Line.read_of_start hnil hstart]
  · have hstart : ∀ c ∈ raw.head?, Text.isBlank c = false := by simpa using hblank
    rw [lineText_mark, lineText, if_pos rfl, Text.trim, Text.trimLeft,
      Text.dropWhile_of_isBlank_head? hstart]

/-! ## Hidden lines -/

def HasSeparator (raw : List Char) : Prop :=
  '=' ∈ raw ∨ ':' ∈ raw

instance (raw : List Char) : Decidable (HasSeparator raw) :=
  inferInstanceAs (Decidable (_ ∨ _))

theorem hasSeparator_trim_iff {raw : List Char} :
    HasSeparator (Text.trim raw) ↔ HasSeparator raw := by
  have hequals : Text.isBlank '=' = false := by decide
  have hcolon : Text.isBlank ':' = false := by decide
  rw [HasSeparator, HasSeparator, Text.mem_trim_iff hequals, Text.mem_trim_iff hcolon]

/-- The key of such a pair keeps the sign in front, so it is not the root's, and no section is
there that could take it. -/
theorem exists_pair_of_hidden {s : List Char} {c : Char} (hs : s.head? = some c)
    (hc : c ∈ startSigns) (hseparator : HasSeparator s) :
    ∃ line, Line.readPair s = .ok line ∧ ({} : StyleSheet).addLine 1 line = {} := by
  have hblank := not_isBlank_of_startSign hc
  have hother : ∀ d ∉ startSigns, c ≠ d := fun d hd heq => hd (heq ▸ hc)
  rcases Line.exists_cut_of_separator (by rw [← not_or, not_not]; exact hseparator) with
    ⟨before, separator, after, rfl, hbefore, hsign⟩
  cases before with
  | nil =>
      cases hs
      rcases hsign with heq | heq
      · exact absurd heq (hother '=' (by decide))
      · exact absurd heq (hother ':' (by decide))
  | cons first before =>
      cases hs
      have hsome : ¬ (c :: before).all Text.isBlank = true := by simp [hblank]
      refine ⟨_, by rw [Line.readPair_append hbefore hsign, if_neg hsome], ?_⟩
      have hkey : String.ofList (Text.lowercase (Text.trim (c :: before))) ≠ "root" := by
        intro heq
        have hchars := congrArg String.toList heq
        rw [String.toList_ofList, Text.trim_cons_of_not_blank hblank, Text.lowercase,
          Text.lowercaseFrom, Text.lowercaseAt_of_isLower (isLower_of_startSign hc)] at hchars
        exact hother 'r' (by decide) (List.cons.inj hchars).left
      rw [addLine, if_neg hkey]

/-! ## Style files -/

def parseBelow (text : List Char) : Except ParseError StyleSheet :=
  (addLines {} 2 (Text.lines text).tail).map fun sheet =>
    { sheet with sections := sheet.sections.reverse }

theorem parse_of_read_error {text raw : List Char} {others : List (List Char)} {d : LineDefect}
    (hlines : Text.lines text = raw :: others) (hread : Line.read (lineText 1 raw) = .error d) :
    parse text = .error ⟨1, d⟩ := by
  rw [parse, hlines, addLines, hread]
  rfl

theorem parse_of_addLine {text raw : List Char} {others : List (List Char)} {line : Line}
    (hlines : Text.lines text = raw :: others) (hread : Line.read (lineText 1 raw) = .ok line)
    (hadd : ({} : StyleSheet).addLine 1 line = {}) : parse text = parseBelow text := by
  rw [parse, parseBelow, hlines, addLines, hread]
  simp only [hadd, List.tail_cons]

theorem parse_mark_of_not_hidesStart {text : List Char}
    (h : ∀ raw ∈ (Text.lines text).head?, ¬ HidesStart raw) :
    parse ('\ufeff' :: text) = parse text := by
  rw [parse, parse, Text.lines_mark]
  cases hlines : Text.lines text with
  | nil => rfl
  | cons raw others =>
      rw [hlines] at h
      have hread := read_lineText_mark (h raw rfl)
      rw [List.headD_cons, List.tail_cons, addLines, addLines, hread]

theorem parse_mark_of_hidesStart {text raw : List Char} (hraw : raw ∈ (Text.lines text).head?)
    (h : HidesStart raw) :
    parse ('\ufeff' :: text) =
      if HasSeparator raw then parseBelow text else .error ⟨1, .noSeparator⟩ := by
  rcases h with ⟨⟨first, hfirst, hblank⟩, c, hc, hsign⟩
  have hne : Text.trim raw ≠ [] := by
    intro hnil
    rw [hnil] at hc
    cases hc
  have hread := read_lineText_mark_of_blank hfirst hblank hne
  rcases List.head?_eq_some_iff.mp hraw with ⟨others, hlines⟩
  have hmarked : Text.lines ('\ufeff' :: text) = ('\ufeff' :: raw) :: others := by
    rw [Text.lines_mark, hlines, List.headD_cons, List.tail_cons]
  by_cases hseparator : HasSeparator raw
  · rcases exists_pair_of_hidden hc hsign (hasSeparator_trim_iff.mpr hseparator) with
      ⟨line, hline, hadd⟩
    rw [if_pos hseparator, parse_of_addLine hmarked (hread.trans hline) hadd, parseBelow,
      parseBelow, hmarked, hlines, List.tail_cons, List.tail_cons]
  · have hnone : '=' ∉ Text.trim raw ∧ ':' ∉ Text.trim raw :=
      not_or.mp fun hboth => hseparator (hasSeparator_trim_iff.mp hboth)
    rw [if_neg hseparator,
      parse_of_read_error hmarked (hread.trans (Line.readPair_of_not_mem hnone))]

def IsPairedComment (raw : List Char) : Prop :=
  (∃ c ∈ (Text.trim raw).head?, c = '#' ∨ c = ';') ∧ HasSeparator raw

theorem parse_of_comment {text raw : List Char} (hraw : raw ∈ (Text.lines text).head?)
    (hcomment : ∃ c ∈ (Text.trim raw).head?, c = '#' ∨ c = ';') :
    parse text = parseBelow text := by
  rcases hcomment with ⟨c, hc, hsign⟩
  rcases List.head?_eq_some_iff.mp hraw with ⟨others, hlines⟩
  rcases List.head?_eq_some_iff.mp hc with ⟨rest, htrim⟩
  have hmark : c ≠ '\ufeff' := by
    rcases hsign with rfl | rfl
    · decide
    · decide
  have hread : Line.read (lineText 1 raw) = .ok .ignored := by
    rw [lineText, if_pos rfl, htrim, List.dropWhile_cons_of_neg (by simpa using hmark), Line.read,
      if_pos hsign]
  exact parse_of_addLine hlines hread rfl

/-- A mark changes nothing unless it hides how the first line starts, and then nothing if that
line is a comment with a separator. Any other hidden line is lost: it is passed over if it has
a separator, and the file is refused for it if it has none. -/
theorem parse_mark (text : List Char) :
    ((∀ raw ∈ (Text.lines text).head?, HidesStart raw → IsPairedComment raw) →
      parse ('\ufeff' :: text) = parse text ∧
        ∀ path, StyleFile.read path (('\ufeff' :: text).flatMap Utf8.encode) =
          StyleFile.read path (text.flatMap Utf8.encode)) ∧
    ∀ raw ∈ (Text.lines text).head?, HidesStart raw →
      parse ('\ufeff' :: text) =
        if HasSeparator raw then parseBelow text else .error ⟨1, .noSeparator⟩ := by
  refine ⟨fun hfirst => ?_, fun raw hraw hhides => parse_mark_of_hidesStart hraw hhides⟩
  have hparse : parse ('\ufeff' :: text) = parse text := by
    by_cases hhides : ∃ raw ∈ (Text.lines text).head?, HidesStart raw
    · rcases hhides with ⟨raw, hraw, hhides⟩
      rcases hfirst raw hraw hhides with ⟨hcomment, hseparator⟩
      rw [parse_mark_of_hidesStart hraw hhides, if_pos hseparator, parse_of_comment hraw hcomment]
    · exact parse_mark_of_not_hidesStart fun raw hraw hhidden => hhides ⟨raw, hraw, hhidden⟩
  refine ⟨hparse, fun path => ?_⟩
  simp only [StyleFile.read, Utf8.text_encode, hparse]

/-- A pair may be indented, a header may not. -/
theorem parse_mark_of_indented_pair :
    (∀ raw ∈ (Text.lines "  root = true\n[a]".toList).head?,
        HidesStart raw → IsPairedComment raw) ∧
      parse ('\ufeff' :: "  root = true\n[a]".toList) = parse "  root = true\n[a]".toList := by
  have hlines : Text.lines "  root = true\n[a]".toList =
      ["  root = true".toList, "[a]".toList] := by
    decide +kernel
  have htrim : Text.trim "  root = true".toList = "root = true".toList := by
    decide +kernel
  have hfirst : ∀ raw ∈ (Text.lines "  root = true\n[a]".toList).head?,
      HidesStart raw → IsPairedComment raw := by
    rw [hlines]
    intro raw hraw hhides
    rcases hhides with ⟨-, c, hc, hsign⟩
    cases hraw
    rw [htrim] at hc
    cases hc
    exact absurd hsign (by decide)
  exact ⟨hfirst, ((parse_mark "  root = true\n[a]".toList).left hfirst).left⟩

/-- Without the mark the text has a section; with it there is an error. -/
theorem parse_of_marked_indented_header :
    parse " [a]\nindent_size = 2\n".toList =
        .ok ⟨false, [⟨"a", 1, [("indent_size", "2")]⟩]⟩ ∧
      parse ('\ufeff' :: " [a]\nindent_size = 2\n".toList) = .error ⟨1, .noSeparator⟩ := by
  decide +kernel

end StyleSheet
end FileStyle
