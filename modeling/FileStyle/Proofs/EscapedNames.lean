import FileStyle.Proofs.BaseName
import FileStyle.Proofs.PlainLines

/-!
# Escaped names

A text with a backslash before every character is a section name that is about this text
alone: every scanner of a name passes over a backslash together with the character behind
it, so that none of them sees a bracket, a brace, a star or a leading separator. Only the
separators of the text are seen, for the name is searched for them without regard to
escapes.
-/

namespace FileStyle

namespace Glob

open Glyph

def escapedName (text : List Char) : List Char :=
  text.flatMap fun c => ['\\', c]

variable {text : List Char}

/-! ## Scanning an escaped name -/

theorem separator_mem_escapedName_iff : '/' ∈ escapedName text ↔ '/' ∈ text := by
  simp [escapedName]

theorem withoutRoot_escapedName : withoutRoot (escapedName text) = escapedName text := by
  cases text with
  | nil => rfl
  | cons c text => rfl

theorem globOf_escapedName : globOf (escapedName text) = escapedName text := by
  cases text with
  | nil => rfl
  | cons c text => rfl

theorem floats_escapedName_iff : Floats (escapedName text) ↔ '/' ∉ text := by
  have hdeep : ¬ ['*', '*', '/'] <+: escapedName text := by
    cases text with
    | nil => simp [escapedName]
    | cons c text => simp [escapedName]
  rw [Floats, withoutRoot_escapedName, separator_mem_escapedName_iff, or_iff_left hdeep]

theorem ofText_escapedName : ofText (escapedName text) = text.map escaped := by
  induction text with
  | nil => rfl
  | cons c text ih => exact congrArg (escaped c :: ·) ih

theorem Pattern.spelledBy_escapedName : SpelledBy (text.map .literal) (escapedName text) := by
  induction text with
  | nil => exact .nil
  | cons c text ih => exact .escaped c ih

theorem Pattern.matches_literals_iff {s : List Char} :
    Pattern.Matches (text.map .literal) s ↔ s = text := by
  induction text generalizing s with
  | nil => exact matches_nil_iff
  | cons c text ih =>
      rw [List.map_cons, matches_cons_iff]
      simp [Atom.Matches, ih]

theorem Matcher.ofName_escapedName :
    Matcher.ofName (String.ofList (escapedName text)) =
      .ok ⟨decide ('/' ∉ text), [text.map .literal]⟩ := by
  have hopen : opening ∉ ofText (globOf (String.ofList (escapedName text)).toList) := by
    rw [String.toList_ofList, globOf_escapedName, ofText_escapedName]
    simp
  have hfloats : (anchoring (escapedName text)).1 = decide ('/' ∉ text) := by
    rw [Bool.eq_iff_iff, anchoring_floating, floats_escapedName_iff, decide_eq_true_iff]
  rw [Matcher.ofName_of_opening_not_mem hopen, String.toList_ofList, globOf_escapedName,
    Pattern.read_of_spelledBy Pattern.spelledBy_escapedName, hfloats]
  rfl

/-! ## The header of an escaped name -/

def escapedHeader (text : List Char) : List Char :=
  '[' :: (escapedName text ++ [']'])

theorem isTrimmed_escapedHeader : Text.IsTrimmed (escapedHeader text) := by
  constructor
  · intro c hc
    cases hc
    decide
  · intro c hc
    rw [escapedHeader, ← List.cons_append, List.getLast?_concat] at hc
    cases hc
    decide

theorem lineText_escapedHeader (number : Nat) :
    StyleSheet.lineText number (escapedHeader text) = escapedHeader text := by
  rw [StyleSheet.lineText, Text.trim_of_isTrimmed isTrimmed_escapedHeader]
  split
  · rw [escapedHeader, List.dropWhile_cons_of_neg (by decide)]
  · rfl

theorem read_escapedHeader (number : Nat) :
    Line.read (StyleSheet.lineText number (escapedHeader text)) =
      .ok (.header (String.ofList (escapedName text))) := by
  rw [lineText_escapedHeader]
  exact Line.read_of_tells (.header (by simp))

theorem parse_escapedHeader (h : ∀ c ∈ text, Text.isLineBreak c = false) :
    StyleSheet.parse (escapedHeader text) =
      .ok ⟨false, [⟨String.ofList (escapedName text), 1, []⟩]⟩ := by
  have hbackslash : Text.isLineBreak '\\' = false := by decide
  have hbrackets : Text.isLineBreak '[' = false ∧ Text.isLineBreak ']' = false := by decide
  have hunbroken : (escapedHeader text).any Text.isLineBreak = false := by
    rw [List.any_eq_false]
    intro c hc
    rw [Bool.not_eq_true]
    rcases List.mem_cons.mp hc with rfl | hc
    · exact hbrackets.left
    rcases List.mem_append.mp hc with hc | hc
    · rcases List.mem_flatMap.mp hc with ⟨d, hd, hc⟩
      have hcases : c = '\\' ∨ c = d := by simpa using hc
      rcases hcases with rfl | rfl
      · exact hbackslash
      · exact h c hd
    · rw [List.mem_singleton.mp hc]
      exact hbrackets.right
  have hlines := Text.lines_append_of_unbroken hunbroken (List.cons_ne_nil _ _) []
  rw [Text.lines_nil, List.append_nil, List.headD_nil, List.append_nil, List.tail_nil] at hlines
  rw [StyleSheet.parse, hlines, StyleSheet.addLines, read_escapedHeader]
  rfl

/-! ## Sections -/

/-- The header of a text with every character escaped gives a section of that name. The name
can be read, and the section is about the text itself if that has a separator, and about the
paths whose last name is the text if it has none. -/
theorem sectionMatches_escapedName {text : String}
    (h : ∀ c ∈ text.toList, Text.isLineBreak c = false) :
    (∀ number, Line.read (StyleSheet.lineText number (escapedHeader text.toList)) =
      .ok (.header (String.ofList (escapedName text.toList)))) ∧
    StyleSheet.parse (escapedHeader text.toList) =
      .ok ⟨false, [⟨String.ofList (escapedName text.toList), 1, []⟩]⟩ ∧
    (∃ m, Matcher.ofName (String.ofList (escapedName text.toList)) = .ok m) ∧
    ∀ path : String, ∃ applies,
      sectionMatches (String.ofList (escapedName text.toList)) path = .ok applies ∧
      ('/' ∈ text.toList → (applies = true ↔ path = text)) ∧
      ('/' ∉ text.toList → (applies = true ↔ baseName path.toList = text.toList)) := by
  refine ⟨read_escapedHeader, parse_escapedHeader h, ⟨_, Matcher.ofName_escapedName⟩, ?_⟩
  intro path
  refine ⟨Matcher.accepts ⟨decide ('/' ∉ text.toList), [text.toList.map .literal]⟩ path, ?_, ?_⟩
  · rw [sectionMatches, Matcher.ofName_escapedName]
    rfl
  rw [Matcher.accepts_iff]
  simp only [List.mem_singleton, exists_eq_left, Pattern.matches_literals_iff,
    exists_eq_right, decide_eq_true_eq]
  constructor
  · intro hseparator
    rw [or_iff_left (fun hbelow => hbelow.left hseparator), String.toList_inj, eq_comm]
  · intro hseparator
    rw [baseName_eq_iff hseparator, and_iff_right hseparator]

/-- A name of brackets, braces, a comma, stars, a negation and a backslash at the end. -/
theorem sectionMatches_escapedName_of_marks :
    StyleSheet.parse "[\\[\\!\\*\\]\\\x7b\\,\\\x7d\\\\]".toList =
        .ok ⟨false, [⟨"\\[\\!\\*\\]\\\x7b\\,\\\x7d\\\\", 1, []⟩]⟩ ∧
      sectionMatches "\\[\\!\\*\\]\\\x7b\\,\\\x7d\\\\" "lib/[!*]\x7b,\x7d\\" = .ok true ∧
      sectionMatches "\\[\\!\\*\\]\\\x7b\\,\\\x7d\\\\" "lib/[!*],\\" = .ok false := by
  have hall : "[!*]\x7b,\x7d\\".toList.all (fun c => !Text.isLineBreak c) = true := by decide
  have hline : ∀ c ∈ "[!*]\x7b,\x7d\\".toList, Text.isLineBreak c = false := by
    intro c hc
    simpa using List.all_eq_true.mp hall c hc
  have hseparator : '/' ∉ "[!*]\x7b,\x7d\\".toList := by decide
  rcases sectionMatches_escapedName hline with ⟨-, hparse, -, hsections⟩
  rcases hsections "lib/[!*]\x7b,\x7d\\" with ⟨applies, happlies, -, hiff⟩
  rcases hsections "lib/[!*],\\" with ⟨other, hother, -, hotherIff⟩
  have htrue : applies = true := (hiff hseparator).mpr (by decide)
  have hfalse : other = false := by
    rw [Bool.eq_false_iff]
    intro heq
    exact absurd ((hotherIff hseparator).mp heq) (by decide)
  rw [htrue] at happlies
  rw [hfalse] at hother
  exact ⟨hparse, happlies, hother⟩

end Glob
end FileStyle
