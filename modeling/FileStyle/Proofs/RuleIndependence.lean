import FileStyle.Proofs.FindingPlace

/-!
# Rules do not interfere

What a check finds about one rule depends on what the style says about this rule and on
the character set that reads the file, and on nothing else. There is one exception by
design: indentation of the wrong kind is not blamed for its length as well.
-/

namespace FileStyle

namespace Style

/-- Two styles say the same about what a finding with the given reason depends on. -/
def AgreesOn (s t : Style) : Reason → Prop
  | .indentStyle => s.indentStyle = t.indentStyle
  | .indentSizeMismatch => s.indentStyle = t.indentStyle ∧ s.indentSize = t.indentSize
  | .endOfLineMismatch => s.endOfLine = t.endOfLine
  | .trailingWhitespace =>
      s.trimTrailingWhitespace = some true ↔ t.trimTrailingWhitespace = some true
  | .noFinalNewline => s.insertFinalNewline = some true ↔ t.insertFinalNewline = some true
  | .bomNotFound => True
  | .invalidCharacter => True

def Asks (s : Style) : Reason → Prop
  | .indentStyle => s.indentStyle ≠ none
  | .indentSizeMismatch => s.indentSize ≠ none
  | .endOfLineMismatch => s.endOfLine ≠ none
  | .trailingWhitespace => s.trimTrailingWhitespace = some true
  | .noFinalNewline => s.insertFinalNewline = some true
  | .bomNotFound => s.charset = some .utf8Bom
  | .invalidCharacter => s.charset ≠ none

end Style

def Finding.sharesNoLine (others : List Finding) (f : Finding) : Bool :=
  others.all (·.line ≠ f.line)

namespace Layout

open Token Finding

/-!
## Styles that agree on a rule
-/

variable {s t : Style} {r : Reason}

theorem isWrongIndent_congr (h : s.indentStyle = t.indentStyle) :
    isWrongIndent s = isWrongIndent t := by
  funext token
  unfold isWrongIndent
  rw [h]

theorem about_indentFindings_congr (h : s.AgreesOn t r) (line : Nat) (body : List Token)
    (isOver : Bool) :
    about [r] (indentFindings s line body isOver) =
      about [r] (indentFindings t line body isOver) := by
  by_cases hstyle : r = .indentStyle
  · subst hstyle
    rw [about_indentStyle_indentFindings (by simp) (by simp),
      about_indentStyle_indentFindings (by simp) (by simp), isWrongIndent_congr h]
  · by_cases hsize : r = .indentSizeMismatch
    · subst hsize
      rw [about_indentSize_indentFindings, about_indentSize_indentFindings,
        isWrongIndent_congr h.1, h.2]
    · have hnotStyle : Reason.indentStyle ∉ [r] := by simpa using Ne.symm hstyle
      have hnotSize : Reason.indentSizeMismatch ∉ [r] := by simpa using Ne.symm hsize
      rw [about_indentFindings_of_not_mem hnotStyle hnotSize,
        about_indentFindings_of_not_mem hnotStyle hnotSize]

theorem about_trailingFindings_congr (h : s.AgreesOn t r) (line : Nat)
    (body : List Token) :
    about [r] (trailingFindings s line body) = about [r] (trailingFindings t line body) := by
  rw [about_trailingFindings, about_trailingFindings]
  split
  · next hr =>
      obtain rfl := List.mem_singleton.mp hr
      have hrule : s.trimTrailingWhitespace = some true ↔
          t.trimTrailingWhitespace = some true := h
      simp only [trailingFindings, hrule]
  · rfl

theorem about_endingFindings_congr (h : s.AgreesOn t r) (line : Nat) (body : List Token)
    (ending : EndOfLine) (next : Option Token) :
    about [r] (endingFindings s line body ending next) =
      about [r] (endingFindings t line body ending next) := by
  rw [about_endingFindings, about_endingFindings]
  split
  · next hr =>
      obtain rfl := List.mem_singleton.mp hr
      have hrule : s.endOfLine = t.endOfLine := h
      have hwrong : isWrongEnding s ending next = isWrongEnding t ending next := by
        unfold isWrongEnding
        rw [hrule]
      rw [endingFindings, endingFindings, hwrong]
  · rfl

theorem about_finalFindings_congr (h : s.AgreesOn t r) (line : Nat) (rest : List Token) :
    about [r] (finalFindings s line rest) = about [r] (finalFindings t line rest) := by
  rw [about_finalFindings, about_finalFindings]
  split
  · next hr =>
      obtain rfl := List.mem_singleton.mp hr
      have hrule : s.insertFinalNewline = some true ↔ t.insertFinalNewline = some true := h
      simp only [finalFindings, hrule]
  · rfl

theorem about_lineFindings_congr (h : s.AgreesOn t r) (line : Nat) (l : Line)
    (next : Option Token) :
    about [r] (lineFindings s line l next) = about [r] (lineFindings t line l next) := by
  simp only [lineFindings, about_append, about_indentFindings_congr h,
    about_trailingFindings_congr h, about_endingFindings_congr h]

theorem about_findingsFrom_congr (h : s.AgreesOn t r) (line : Nat) (ls : List Line)
    (rest : List Token) :
    about [r] (findingsFrom s line ls rest) = about [r] (findingsFrom t line ls rest) := by
  induction ls generalizing line with
  | nil =>
      simp only [findingsFrom, openFindings, about_append, about_indentFindings_congr h,
        about_finalFindings_congr h]
  | cons l ls ih =>
      rw [findingsFrom, findingsFrom, about_append, about_append,
        about_lineFindings_congr h, ih]

theorem findingsFrom_tabWidth (width : Option Columns) (line : Nat) (ls : List Line)
    (rest : List Token) :
    findingsFrom { s with tabWidth := width } line ls rest =
      findingsFrom s line ls rest := by
  induction ls generalizing line with
  | nil => rfl
  | cons l ls ih =>
      rw [findingsFrom, findingsFrom, ih]
      rfl

/-!
## Rules that the style does not have
-/

theorem isWrongIndent_of_unset (h : s.indentStyle = none) (token : Token) :
    isWrongIndent s token = false := by
  unfold isWrongIndent
  split <;> simp [h]

theorem any_isWrongIndent_of_unset (h : s.indentStyle = none) (body : List Token) :
    body.any (isWrongIndent s) = false := by
  simp [isWrongIndent_of_unset h]

theorem about_indentFindings_of_not_asks (h : ¬ s.Asks r) (line : Nat)
    (body : List Token) (isOver : Bool) :
    about [r] (indentFindings s line body isOver) = [] := by
  apply about_of_forall_not_mem
  intro f hf hr
  obtain rfl := List.mem_singleton.mp hr
  rcases eq_of_mem_indentFindings hf with ⟨hwrong, rfl⟩ | ⟨size, hsize, -, rfl⟩
  · have hunset : s.indentStyle = none := not_not.mp h
    rw [any_isWrongIndent_of_unset hunset] at hwrong
    cases hwrong
  · have hunset : s.indentSize = none := not_not.mp h
    rw [hunset] at hsize
    cases hsize

theorem about_trailingFindings_of_not_asks (h : ¬ s.Asks r) (line : Nat)
    (body : List Token) : about [r] (trailingFindings s line body) = [] := by
  rw [about_trailingFindings]
  split
  · next hr =>
      obtain rfl := List.mem_singleton.mp hr
      exact if_neg fun hrule => h hrule.1
  · rfl

theorem about_endingFindings_of_not_asks (h : ¬ s.Asks r) (line : Nat)
    (body : List Token) (ending : EndOfLine) (next : Option Token) :
    about [r] (endingFindings s line body ending next) = [] := by
  rw [about_endingFindings]
  split
  · next hr =>
      obtain rfl := List.mem_singleton.mp hr
      have hunset : s.endOfLine = none := not_not.mp h
      cases ending <;> simp [endingFindings, isWrongEnding, hunset]
  · rfl

theorem about_finalFindings_of_not_asks (h : ¬ s.Asks r) (line : Nat)
    (rest : List Token) : about [r] (finalFindings s line rest) = [] := by
  rw [about_finalFindings]
  split
  · next hr =>
      obtain rfl := List.mem_singleton.mp hr
      exact if_neg fun hrule => h hrule.1
  · rfl

theorem about_unreadableFindings_of_readable {body : List Token}
    (h : r = .invalidCharacter → ∀ t ∈ body, t.isUnreadable = false) (line : Nat) :
    about [r] (unreadableFindings line body) = [] := by
  apply about_of_forall_not_mem
  intro f hf hr
  obtain rfl := List.mem_singleton.mp hr
  rcases exists_of_mem_unreadableFindings hf with ⟨before, t, after, rfl, ht, rfl⟩
  have hread := h rfl t (by simp)
  rw [ht] at hread
  cases hread

theorem about_findingsFrom_of_not_asks (h : ¬ s.Asks r) (line : Nat) {ls : List Line}
    {rest : List Token}
    (hread : r = .invalidCharacter →
      ∀ t ∈ (Layout.mk ls rest).tokens, t.isUnreadable = false) :
    about [r] (findingsFrom s line ls rest) = [] := by
  induction ls generalizing line with
  | nil =>
      have hrest : r = .invalidCharacter → ∀ t ∈ rest, t.isUnreadable = false := hread
      simp only [findingsFrom, openFindings, about_append,
        about_indentFindings_of_not_asks h, about_unreadableFindings_of_readable hrest,
        about_finalFindings_of_not_asks h, List.append_nil]
  | cons l ls ih =>
      have hbody : r = .invalidCharacter → ∀ t ∈ l.body, t.isUnreadable = false := by
        intro hr t ht
        apply hread hr
        simp [ht]
      have hmore : r = .invalidCharacter →
          ∀ t ∈ (Layout.mk ls rest).tokens, t.isUnreadable = false := by
        intro hr t ht
        apply hread hr
        rw [tokens_line]
        simp [ht]
      rw [findingsFrom, about_append, ih (line + 1) hmore, lineFindings]
      simp only [about_append, about_indentFindings_of_not_asks h,
        about_unreadableFindings_of_readable hbody, about_trailingFindings_of_not_asks h,
        about_endingFindings_of_not_asks h, List.append_nil]

/-!
## Wrong indentation hides its length
-/

theorem about_indentSize_indentFindings_of_unset (hunset : s.indentStyle = none)
    (hsize : s.indentSize = t.indentSize) (line : Nat) (body : List Token)
    (isOver : Bool) :
    about [.indentSizeMismatch] (indentFindings t line body isOver) =
      (about [.indentSizeMismatch] (indentFindings s line body isOver)).filter
        (sharesNoLine (about [.indentStyle] (indentFindings t line body isOver))) := by
  rw [about_indentSize_indentFindings, about_indentSize_indentFindings,
    about_indentStyle_indentFindings (by simp) (by simp),
    any_isWrongIndent_of_unset hunset, hsize]
  cases hblank : isBlank body with
  | true => simp
  | false =>
      cases hwrong : (indentRun body).any (isWrongIndent t) with
      | true => cases hlength : t.indentSize.any _ <;> simp [sharesNoLine]
      | false => cases hlength : t.indentSize.any _ <;> simp [sharesNoLine]

theorem filter_sharesNoLine_append {xs ys as bs : List Finding}
    (hlater : ∀ f ∈ as, ∀ g ∈ ys, g.line ≠ f.line)
    (hearlier : ∀ f ∈ bs, ∀ g ∈ xs, g.line ≠ f.line) :
    (as ++ bs).filter (sharesNoLine (xs ++ ys)) =
      as.filter (sharesNoLine xs) ++ bs.filter (sharesNoLine ys) := by
  have hfirst : as.filter (sharesNoLine (xs ++ ys)) = as.filter (sharesNoLine xs) := by
    apply List.filter_congr
    intro f hf
    have hys : ys.all (·.line ≠ f.line) = true := by simpa using hlater f hf
    rw [sharesNoLine, List.all_append, hys, Bool.and_true, sharesNoLine]
  have hsecond : bs.filter (sharesNoLine (xs ++ ys)) = bs.filter (sharesNoLine ys) := by
    apply List.filter_congr
    intro f hf
    have hxs : xs.all (·.line ≠ f.line) = true := by simpa using hearlier f hf
    rw [sharesNoLine, List.all_append, hxs, Bool.true_and, sharesNoLine]
  rw [List.filter_append, hfirst, hsecond]

/-- Lengths of indentation that a style without a kind of indentation blames are blamed
by a style with one as well, except on the lines whose indentation is of the wrong
kind. -/
theorem about_indentSize_findingsFrom_of_unset (hunset : s.indentStyle = none)
    (hsize : s.indentSize = t.indentSize) (line : Nat) (ls : List Line)
    (rest : List Token) :
    about [.indentSizeMismatch] (findingsFrom t line ls rest) =
      (about [.indentSizeMismatch] (findingsFrom s line ls rest)).filter
        (sharesNoLine (about [.indentStyle] (findingsFrom t line ls rest))) := by
  induction ls generalizing line with
  | nil =>
      have hopen := about_indentSize_indentFindings_of_unset hunset hsize line rest false
      simpa [findingsFrom, openFindings] using hopen
  | cons l ls ih =>
      have hline := about_indentSize_indentFindings_of_unset hunset hsize line l.body true
      have hover : about [.indentSizeMismatch] (lineFindings t line l
            (Layout.mk ls rest).tokens.head?) =
          (about [.indentSizeMismatch] (lineFindings s line l
            (Layout.mk ls rest).tokens.head?)).filter
            (sharesNoLine (about [.indentStyle] (lineFindings t line l
              (Layout.mk ls rest).tokens.head?))) := by
        simpa [lineFindings] using hline
      -- A line neither hides findings of later lines nor is hidden by theirs.
      simp only [findingsFrom, about_append]
      rw [filter_sharesNoLine_append, ← hover, ← ih]
      · intro f hf g hg
        have hfline := (fits_of_mem_lineFindings (mem_about.mp hf).1).line_eq
        have hgline := line_le_of_mem_findingsFrom (mem_about.mp hg).1
        omega
      · intro f hf g hg
        have hfline := line_le_of_mem_findingsFrom (mem_about.mp hf).1
        have hgline := (fits_of_mem_lineFindings (mem_about.mp hg).1).line_eq
        omega

end Layout

/-!
## Files
-/

theorem Token.isUnreadable_of_ofAscii? {b : UInt8} {t : Token} (h : ofAscii? b = some t) :
    t.isUnreadable = false := by
  unfold ofAscii? at h
  split at h
  · cases h
    rfl
  split at h
  · cases h
    rfl
  split at h
  · cases h
    rfl
  split at h
  · cases h
    rfl
  · cases h

theorem SingleByte.isUnreadable_of_next?_unchecked {bytes rest : List UInt8} {t : Token}
    (h : unchecked.next? bytes = some (t, rest)) : t.isUnreadable = false := by
  cases bytes with
  | nil => cases h
  | cons b bs =>
      cases hascii : Token.ofAscii? b with
      | none =>
          have hvalid : unchecked.next? (b :: bs) = some (.valid [b], bs) := by
            simp [Decoder.next?, unchecked, decoder, hascii]
          rw [hvalid] at h
          cases h
          rfl
      | some u =>
          have hspecial : unchecked.next? (b :: bs) = some (u, bs) := by
            simp [Decoder.next?, unchecked, decoder, hascii]
          rw [hspecial] at h
          cases h
          exact Token.isUnreadable_of_ofAscii? hascii

namespace Style

open Layout Finding

theorem isUnreadable_of_mem_countedTokens {s : Style} (h : s.charset = none)
    (bytes : List UInt8) : ∀ t ∈ s.countedTokens bytes, t.isUnreadable = false := by
  have hcounted : s.countedTokens bytes = SingleByte.unchecked.tokens bytes := by
    rw [countedTokens, decoder, h]
    rfl
  rw [hcounted]
  exact Decoder.forall_mem_tokens SingleByte.isUnreadable_of_next?_unchecked bytes

theorem check_eq_findings_of_charset {s t : Style} (h : s.charset = t.charset)
    (bytes : List UInt8) :
    t.check bytes =
      (preamble s.charset (s.decoder.tokens bytes)).1 ++
        (cut (s.countedTokens bytes)).findings t := by
  rw [check_eq_findings, countedTokens, countedTokens, decoder, decoder, h]

theorem about_preamble {reasons : List Reason} (h : .bomNotFound ∉ reasons)
    (charset : Option Charset) (ts : List Token) :
    about reasons (preamble charset ts).1 = [] := by
  apply about_of_forall_not_mem
  intro f hf
  rw [(preamble_of_mem hf).2.2]
  exact h

/-- The findings for each reason depend only on the rule that they are about, once the
character set is given: other rules do not add to them, take from them or move them.
Only a kind of indentation takes from the findings about its length, and exactly those
on lines that it blames itself. A rule that a style does not have finds nothing, and the
width of a tabulator is no rule. -/
theorem check_about_independent (s t : Style) (h : s.charset = t.charset)
    (bytes : List UInt8) :
    (∀ r, s.AgreesOn t r → about [r] (s.check bytes) = about [r] (t.check bytes)) ∧
      (s.indentStyle = none → s.indentSize = t.indentSize →
        about [.indentSizeMismatch] (t.check bytes) =
          (about [.indentSizeMismatch] (s.check bytes)).filter
            (sharesNoLine (about [.indentStyle] (t.check bytes)))) ∧
      (∀ r, ¬ s.Asks r → about [r] (s.check bytes) = []) ∧
      ∀ width, { s with tabWidth := width }.check bytes = s.check bytes := by
  have hs := check_eq_findings s bytes
  have ht := check_eq_findings_of_charset h bytes
  refine ⟨?_, ?_, ?_, ?_⟩
  · intro r hr
    rw [hs, ht, about_append, about_append, findings, findings,
      about_findingsFrom_congr hr]
  · intro hunset hsize
    rw [hs, ht, about_append, about_append, about_append, about_preamble (by simp),
      about_preamble (by simp)]
    exact about_indentSize_findingsFrom_of_unset hunset hsize 1 _ _
  · intro r hr
    have hread : r = .invalidCharacter →
        ∀ t ∈ (cut (s.countedTokens bytes)).tokens, t.isUnreadable = false := by
      rintro rfl
      rw [tokens_eq_of_cuts (cuts_cut _)]
      exact isUnreadable_of_mem_countedTokens (not_not.mp hr) bytes
    rw [hs, about_append, findings, about_findingsFrom_of_not_asks hr 1 hread,
      List.append_nil]
    apply about_of_forall_not_mem
    intro f hf hmem
    obtain rfl := List.mem_singleton.mp hmem
    rcases preamble_of_mem hf with ⟨hbom, -, rfl⟩
    exact hr hbom
  · intro width
    rw [check_eq_findings_of_charset (t := { s with tabWidth := width }) rfl, hs, findings,
      findingsFrom_tabWidth]
    rfl

/-- Of two lines with an odd indentation, one loses its finding to the rule for tabs. -/
theorem check_about_independent_of_odd_indentations :
    let bytes : List UInt8 := [0x20, 0x61, 0x0A, 0x09, 0x09, 0x09, 0x62, 0x20, 0x0A]
    let s : Style := { indentSize := some ⟨2, Nat.two_pos⟩ }
    let t : Style := { s with
      indentStyle := some .tab
      trimTrailingWhitespace := some true }
    s.charset = t.charset ∧ s.AgreesOn t .endOfLineMismatch ∧ ¬ s.Asks .trailingWhitespace ∧
      s.check bytes =
        [⟨1, 1, 2, .indentSizeMismatch, some 1⟩, ⟨2, 1, 4, .indentSizeMismatch, some 3⟩] ∧
      about [.indentSizeMismatch] (t.check bytes) =
        [⟨2, 1, 4, .indentSizeMismatch, some 3⟩] ∧
      about [.endOfLineMismatch] (s.check bytes) =
        about [.endOfLineMismatch] (t.check bytes) ∧
      about [.trailingWhitespace] (s.check bytes) = [] := by
  intro bytes s t
  have hagree : s.AgreesOn t .endOfLineMismatch := rfl
  have hunasked : ¬ s.Asks .trailingWhitespace := by simp [Asks, s]
  have hs : s.check bytes =
      [⟨1, 1, 2, .indentSizeMismatch, some 1⟩, ⟨2, 1, 4, .indentSizeMismatch, some 3⟩] := by
    decide +kernel
  have hblamed : about [.indentStyle] (t.check bytes) = [⟨1, 1, 2, .indentStyle, none⟩] := by
    decide +kernel
  rcases check_about_independent s t rfl bytes with ⟨hsame, hremoved, hunset, -⟩
  refine ⟨rfl, hagree, hunasked, hs, ?_, hsame _ hagree, hunset _ hunasked⟩
  rw [hremoved rfl rfl, hs, hblamed]
  decide

end Style
end FileStyle
