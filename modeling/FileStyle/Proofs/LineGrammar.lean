import FileStyle.Proofs.LowerCase
import FileStyle.StyleFile
import Mathlib.Data.List.TakeWhile

/-!
# The grammar of lines

A line of a style file, as it is read, is ignored, a header, a pair, or spoiled by one of three
defects. Each of these is a rule about the text alone. The rules cover every text, no two of
them the same one, and the reader follows them.
-/

namespace FileStyle

/-! ## Empty texts, cuts and lines -/

namespace Text

theorem trim_eq_nil_iff {s : List Char} : trim s = [] ↔ ∀ c ∈ s, isBlank c = true := by
  rw [trim, trimRight, List.reverse_eq_nil_iff, trimLeft, List.dropWhile_eq_nil_iff]
  simp only [List.mem_reverse]
  constructor
  · intro h
    apply List.dropWhile_eq_nil_iff.mp
    cases hleft : s.dropWhile isBlank with
    | nil => rfl
    | cons c rest =>
        have hblank : isBlank c = true := h c (by rw [hleft]; exact List.mem_cons_self)
        have hnot : isBlank c = false := isBlank_head?_dropWhile s c (by rw [hleft]; rfl)
        rw [hblank] at hnot
        cases hnot
  · intro h c hc
    exact h c ((List.dropWhile_suffix isBlank).mem hc)

theorem lowercase_eq_nil_iff {s : List Char} : lowercase s = [] ↔ s = [] := by
  cases s with
  | nil => simp
  | cons c s => simp [lowercase, lowercaseFrom, lowercaseAt_ne_nil]

theorem exists_cut_of_mem {s : List Char} {c : Char} (h : c ∈ s) :
    ∃ before after, s = before ++ c :: after ∧ c ∉ after := by
  rcases List.eq_append_cons_of_mem (List.mem_reverse.mpr h) with ⟨after, before, hs, hafter⟩
  refine ⟨before.reverse, after.reverse, ?_, by simpa using hafter⟩
  rw [← List.reverse_reverse s, hs]
  simp

theorem lines_append_of_unbroken {front : List Char} (h : front.any isLineBreak = false)
    (hne : front ≠ []) (text : List Char) :
    lines (front ++ text) = (front ++ (lines text).headD []) :: (lines text).tail := by
  induction front with
  | nil => exact absurd rfl hne
  | cons c front ih =>
      rw [List.any_cons, Bool.or_eq_false_iff] at h
      rcases h with ⟨hc, hfront⟩
      have hreturn : c ≠ '\r' := by
        intro heq
        rw [heq] at hc
        cases hc
      rw [List.cons_append, lines.eq_3 _ _ (fun _ heq _ => hreturn heq), hc]
      cases front with
      | nil =>
          rw [List.nil_append]
          cases lines text with
          | nil => rfl
          | cons line others => rfl
      | cons d front =>
          rw [ih hfront (List.cons_ne_nil d front)]
          rfl

end Text

/-! ## Rules -/

/-- What a line says. A header ends at its last closing bracket, and a key at the first
separator. -/
inductive Line.Tells : List Char → Line → Prop where
  | blank : Tells [] .ignored
  | comment {mark : Char} {rest : List Char} (hmark : mark = '#' ∨ mark = ';') :
      Tells (mark :: rest) .ignored
  | header {name after : List Char} (hafter : ']' ∉ after) :
      Tells ('[' :: (name ++ ']' :: after)) (.header (String.ofList name))
  | pair {before after : List Char} {separator : Char}
      (hstart : ∀ c ∈ before.head?, c ≠ '#' ∧ c ≠ ';' ∧ c ≠ '[')
      (hbefore : '=' ∉ before ∧ ':' ∉ before) (hseparator : separator = '=' ∨ separator = ':')
      (hkey : ∃ c ∈ before, Text.isBlank c = false) :
      Tells (before ++ separator :: after)
        (.pair (String.ofList (Text.lowercase (Text.trim before)))
          (String.ofList (Text.trim after)))

inductive LineDefect.Spoils : LineDefect → List Char → Prop where
  | unterminatedHeader {rest : List Char} (hrest : ']' ∉ rest) :
      Spoils .unterminatedHeader ('[' :: rest)
  | noSeparator {s : List Char} (hne : s ≠ [])
      (hstart : ∀ c ∈ s.head?, c ≠ '#' ∧ c ≠ ';' ∧ c ≠ '[') (hnone : '=' ∉ s ∧ ':' ∉ s) :
      Spoils .noSeparator s
  | missingKey {before after : List Char} {separator : Char}
      (hseparator : separator = '=' ∨ separator = ':')
      (hblank : ∀ c ∈ before, Text.isBlank c = true) :
      Spoils .missingKey (before ++ separator :: after)

namespace Line

/-! ## The reader follows the rules -/

theorem not_mem_of_blank {s : List Char} (h : ∀ c ∈ s, Text.isBlank c = true) :
    ∀ c ∈ ['=', ':', '#', ';', '['], c ∉ s := by
  have hmarks : ['=', ':', '#', ';', '['].all (fun c => !Text.isBlank c) = true := by decide
  intro c hc hmem
  have hblank := List.all_eq_true.mp hmarks c hc
  rw [h c hmem] at hblank
  cases hblank

theorem start_of_blank {before after : List Char} {separator : Char}
    (hblank : ∀ c ∈ before, Text.isBlank c = true)
    (hseparator : separator = '=' ∨ separator = ':') :
    ∀ c ∈ (before ++ separator :: after).head?, c ≠ '#' ∧ c ≠ ';' ∧ c ≠ '[' := by
  intro c hc
  cases before with
  | nil =>
      cases hc
      rcases hseparator with rfl | rfl
      · decide
      · decide
  | cons first before =>
      cases hc
      have hne : ∀ d ∈ ['=', ':', '#', ';', '['], c ≠ d := by
        intro d hd heq
        exact not_mem_of_blank hblank d hd (heq ▸ List.mem_cons_self)
      exact ⟨hne '#' (by simp), hne ';' (by simp), hne '[' (by simp)⟩

theorem not_isSeparator_of_not_mem {s : List Char} (h : '=' ∉ s ∧ ':' ∉ s) :
    ∀ c ∈ s, (!isSeparator c) = true := by
  intro c hc
  have hequals : c ≠ '=' := fun heq => h.left (heq ▸ hc)
  have hcolon : c ≠ ':' := fun heq => h.right (heq ▸ hc)
  simp [isSeparator, hequals, hcolon]

theorem isSeparator_of_eq {c : Char} (h : c = '=' ∨ c = ':') : isSeparator c = true := by
  simpa [isSeparator] using h

theorem readHeader_append {name after : List Char} (h : ']' ∉ after) :
    readHeader (name ++ ']' :: after) = .ok (.header (String.ofList name)) := by
  have hafter : ∀ c ∈ after.reverse, decide (c ≠ ']') = true := by
    intro c hc
    exact decide_eq_true fun heq => h (heq ▸ List.mem_reverse.mp hc)
  rw [readHeader, List.reverse_append, List.reverse_cons, List.append_assoc,
    List.dropWhile_append_of_pos hafter]
  simp

theorem readHeader_of_not_mem {s : List Char} (h : ']' ∉ s) :
    readHeader s = .error .unterminatedHeader := by
  have hnone : s.reverse.dropWhile (fun c => decide (c ≠ ']')) = [] := by
    rw [List.dropWhile_eq_nil_iff]
    intro c hc
    exact decide_eq_true fun heq => h (heq ▸ List.mem_reverse.mp hc)
  rw [readHeader, hnone]

theorem readPair_append {before after : List Char} {separator : Char}
    (hbefore : '=' ∉ before ∧ ':' ∉ before) (hseparator : separator = '=' ∨ separator = ':') :
    readPair (before ++ separator :: after) =
      if before.all Text.isBlank = true then
        .error .missingKey
      else
        .ok (.pair (String.ofList (Text.lowercase (Text.trim before)))
          (String.ofList (Text.trim after))) := by
  have hall := not_isSeparator_of_not_mem hbefore
  have hstop : isSeparator separator = true := isSeparator_of_eq hseparator
  have hdrop : (before ++ separator :: after).dropWhile (fun c => !isSeparator c) =
      separator :: after := by
    rw [List.dropWhile_append_of_pos hall, List.dropWhile_cons_of_neg (by simp [hstop])]
  have htake : (before ++ separator :: after).takeWhile (fun c => !isSeparator c) = before := by
    rw [List.takeWhile_append_of_pos hall, List.takeWhile_cons_of_neg (by simp [hstop]),
      List.append_nil]
  rw [readPair, hdrop, htake]
  simp only [Text.lowercase_eq_nil_iff, Text.trim_eq_nil_iff, List.all_eq_true]

theorem readPair_of_not_mem {s : List Char} (h : '=' ∉ s ∧ ':' ∉ s) :
    readPair s = .error .noSeparator := by
  have hnone : s.dropWhile (fun c => !isSeparator c) = [] :=
    List.dropWhile_eq_nil_iff.mpr (not_isSeparator_of_not_mem h)
  rw [readPair, hnone]

theorem read_of_start {s : List Char} (hne : s ≠ [])
    (hstart : ∀ c ∈ s.head?, c ≠ '#' ∧ c ≠ ';' ∧ c ≠ '[') : read s = readPair s := by
  cases s with
  | nil => exact absurd rfl hne
  | cons c s =>
      rcases hstart c rfl with ⟨hhash, hsemicolon, hbracket⟩
      simp [read, hhash, hsemicolon, hbracket]

theorem read_of_tells {s : List Char} {line : Line} (h : Tells s line) : read s = .ok line := by
  cases h with
  | blank => rfl
  | comment hmark => simp [read, hmark]
  | header hafter => simp [read, readHeader_append hafter]
  | @pair before after separator hstart hbefore hseparator hkey =>
      rcases hkey with ⟨c, hc, hblank⟩
      have hne : before ≠ [] := List.ne_nil_of_mem hc
      have hnot : ¬ before.all Text.isBlank = true := by
        intro hall
        rw [List.all_eq_true.mp hall c hc] at hblank
        cases hblank
      rw [read_of_start (by simp) (by rwa [List.head?_append_of_ne_nil _ hne]),
        readPair_append hbefore hseparator, if_neg hnot]

theorem read_of_spoils {s : List Char} {d : LineDefect} (h : d.Spoils s) :
    read s = .error d := by
  cases h with
  | unterminatedHeader hrest => simp [read, readHeader_of_not_mem hrest]
  | noSeparator hne hstart hnone => rw [read_of_start hne hstart, readPair_of_not_mem hnone]
  | @missingKey before after separator hseparator hblank =>
      have hbefore : '=' ∉ before ∧ ':' ∉ before :=
        ⟨not_mem_of_blank hblank _ (by simp), not_mem_of_blank hblank _ (by simp)⟩
      rw [read_of_start (by simp) (start_of_blank hblank hseparator),
        readPair_append hbefore hseparator, if_pos (List.all_eq_true.mpr hblank)]

theorem not_spoils_of_tells {s : List Char} {line : Line} (h : Tells s line) (d : LineDefect) :
    ¬ d.Spoils s := by
  intro hspoils
  have hread := read_of_tells h
  rw [read_of_spoils hspoils] at hread
  cases hread

/-! ## Every text has a rule -/

theorem exists_cut_of_separator {s : List Char} (h : ¬ ('=' ∉ s ∧ ':' ∉ s)) :
    ∃ before separator after, s = before ++ separator :: after ∧
      ('=' ∉ before ∧ ':' ∉ before) ∧ (separator = '=' ∨ separator = ':') := by
  have hnone : ∀ {c}, c ∈ s.takeWhile (fun c => !isSeparator c) → isSeparator c = false := by
    intro c hc
    simpa using List.mem_takeWhile_imp hc
  have hcut := List.takeWhile_append_dropWhile (p := fun c => !isSeparator c) (l := s)
  cases hdrop : s.dropWhile (fun c => !isSeparator c) with
  | nil =>
      rw [hdrop, List.append_nil] at hcut
      rw [hcut] at hnone
      exact absurd ⟨fun hmem => absurd (hnone hmem) (by decide),
        fun hmem => absurd (hnone hmem) (by decide)⟩ h
  | cons separator after =>
      rw [hdrop] at hcut
      have hstop := List.head?_dropWhile_not (fun c => !isSeparator c) s
      rw [hdrop] at hstop
      exact ⟨_, separator, after, hcut.symm,
        ⟨fun hmem => absurd (hnone hmem) (by decide),
          fun hmem => absurd (hnone hmem) (by decide)⟩,
        by simpa [isSeparator, Decidable.or_iff_not_imp_left] using hstop⟩

theorem exists_tells_or_spoils (s : List Char) :
    (∃ line, Tells s line) ∨ ∃ d : LineDefect, d.Spoils s := by
  by_cases hstart : ∀ c ∈ s.head?, c ≠ '#' ∧ c ≠ ';' ∧ c ≠ '['
  · by_cases hne : s = []
    · rw [hne]
      exact .inl ⟨_, .blank⟩
    by_cases hnone : '=' ∉ s ∧ ':' ∉ s
    · exact .inr ⟨_, .noSeparator hne hstart hnone⟩
    rcases exists_cut_of_separator hnone with ⟨before, separator, after, rfl, hbefore, hseparator⟩
    by_cases hblank : ∀ c ∈ before, Text.isBlank c = true
    · exact .inr ⟨_, .missingKey hseparator hblank⟩
    · have hkey : ∃ c ∈ before, Text.isBlank c = false := by simpa using hblank
      rcases hkey with ⟨c, hc, hkey⟩
      rw [List.head?_append_of_ne_nil _ (List.ne_nil_of_mem hc)] at hstart
      exact .inl ⟨_, .pair hstart hbefore hseparator ⟨c, hc, hkey⟩⟩
  · cases s with
    | nil => exact .inl ⟨_, .blank⟩
    | cons c rest =>
        by_cases hmark : c = '#' ∨ c = ';'
        · exact .inl ⟨_, .comment hmark⟩
        have hbracket : c = '[' := by
          by_contra hother
          apply hstart
          intro d hd
          cases hd
          exact ⟨fun heq => hmark (.inl heq), fun heq => hmark (.inr heq), hother⟩
        rw [hbracket]
        by_cases hmem : ']' ∈ rest
        · rcases Text.exists_cut_of_mem hmem with ⟨name, after, rfl, hafter⟩
          exact .inl ⟨_, .header hafter⟩
        · exact .inr ⟨_, .unterminatedHeader hmem⟩

theorem read_eq_ok_iff {s : List Char} {line : Line} : read s = .ok line ↔ Tells s line := by
  refine ⟨?_, read_of_tells⟩
  intro h
  rcases exists_tells_or_spoils s with ⟨other, htells⟩ | ⟨d, hspoils⟩
  · rw [read_of_tells htells] at h
    cases h
    exact htells
  · rw [read_of_spoils hspoils] at h
    cases h

theorem read_eq_error_iff {s : List Char} {d : LineDefect} :
    read s = .error d ↔ d.Spoils s := by
  refine ⟨?_, read_of_spoils⟩
  intro h
  rcases exists_tells_or_spoils s with ⟨line, htells⟩ | ⟨other, hspoils⟩
  · rw [read_of_tells htells] at h
    cases h
  · rw [read_of_spoils hspoils] at h
    cases h
    exact hspoils

end Line
end FileStyle
