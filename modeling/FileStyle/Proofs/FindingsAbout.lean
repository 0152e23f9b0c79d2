import FileStyle.Proofs.LineCheck
import Mathlib.Data.List.Induction

/-!
# The findings about a rule

The findings of a line come from five rules, each with reasons of its own. This module
tells the findings of one rule from the others: what a finding of a rule looks like, and
which part of the findings of a line is left when only some reasons are asked for.
-/

namespace FileStyle

namespace Finding

def about (reasons : List Reason) (found : List Finding) : List Finding :=
  found.filter (·.reason ∈ reasons)

@[simp] theorem about_nil (reasons : List Reason) : about reasons [] = [] := rfl

@[simp] theorem about_append (reasons : List Reason) (xs ys : List Finding) :
    about reasons (xs ++ ys) = about reasons xs ++ about reasons ys :=
  List.filter_append xs ys

theorem mem_about {reasons : List Reason} {found : List Finding} {f : Finding} :
    f ∈ about reasons found ↔ f ∈ found ∧ f.reason ∈ reasons := by
  simp [about]

theorem about_of_forall_not_mem {reasons : List Reason} {found : List Finding}
    (h : ∀ f ∈ found, f.reason ∉ reasons) : about reasons found = [] := by
  apply List.filter_eq_nil_iff.mpr
  intro f hf
  simpa using h f hf

theorem about_of_forall_eq {found : List Finding} {r : Reason}
    (h : ∀ f ∈ found, f.reason = r) (reasons : List Reason) :
    about reasons found = if r ∈ reasons then found else [] := by
  split
  · next hr =>
      apply List.filter_eq_self.mpr
      intro f hf
      simpa [h f hf] using hr
  · next hr =>
      apply about_of_forall_not_mem
      intro f hf
      rwa [h f hf]

end Finding

namespace Layout

open Token Finding

/-!
## The shape of a finding
-/

theorem eq_of_mem_indentFindings {s : Style} {line : Nat} {body : List Token}
    {isOver : Bool} {f : Finding} (h : f ∈ indentFindings s line body isOver) :
    ((indentRun body).any (isWrongIndent s) = true ∧
        f = ⟨line, 1, (indentRun body).length + 1, .indentStyle, none⟩) ∨
      ∃ size, s.indentSize = some size ∧ (indentRun body).length % size.count ≠ 0 ∧
        f = ⟨line, 1, (indentRun body).length + 1, .indentSizeMismatch,
          some (indentRun body).length⟩ := by
  simp only [indentFindings] at h
  split at h
  · next hstyle =>
      rw [Bool.and_eq_true] at hstyle
      exact Or.inl ⟨hstyle.2, List.mem_singleton.mp h⟩
  · split at h
    · next hsize =>
        rw [Bool.and_eq_true, Option.any_eq_true] at hsize
        rcases hsize.2 with ⟨size, hsome, hmod⟩
        exact Or.inr ⟨size, hsome, of_decide_eq_true hmod, List.mem_singleton.mp h⟩
    · cases h

theorem exists_of_mem_unreadableFindings {line : Nat} {body : List Token} {f : Finding}
    (h : f ∈ unreadableFindings line body) :
    ∃ before t after, body = before ++ t :: after ∧ t.isUnreadable = true ∧
      f = ⟨line, before.length + 1, before.length + 2, .invalidCharacter, none⟩ := by
  induction body using List.reverseRecOn with
  | nil => cases h
  | append_singleton body last ih =>
      rw [unreadableFindings_append] at h
      rcases List.mem_append.mp h with hbody | hlast
      · rcases ih hbody with ⟨before, t, after, rfl, ht, hf⟩
        exact ⟨before, t, after ++ [last], by simp, ht, hf⟩
      · split at hlast
        · next ht => exact ⟨body, last, [], rfl, ht, List.mem_singleton.mp hlast⟩
        · cases hlast

theorem eq_of_mem_trailingFindings {s : Style} {line : Nat} {body : List Token}
    {f : Finding} (h : f ∈ trailingFindings s line body) :
    trailingLength body ≠ 0 ∧
      f = ⟨line, body.length - trailingLength body + 1, body.length + 1,
        .trailingWhitespace, none⟩ := by
  unfold trailingFindings at h
  split at h
  · next hrule => exact ⟨hrule.2, List.mem_singleton.mp h⟩
  · cases h

theorem eq_of_mem_endingFindings {s : Style} {line : Nat} {body : List Token}
    {ending : EndOfLine} {next : Option Token} {f : Finding}
    (h : f ∈ endingFindings s line body ending next) :
    f = ⟨line, body.length + 1, body.length + 2, .endOfLineMismatch, none⟩ := by
  unfold endingFindings at h
  split at h
  · exact List.mem_singleton.mp h
  · cases h

theorem eq_of_mem_finalFindings {s : Style} {line : Nat} {rest : List Token}
    {f : Finding} (h : f ∈ finalFindings s line rest) :
    f = ⟨line, rest.length + 1, rest.length + 1, .noFinalNewline, none⟩ := by
  unfold finalFindings at h
  split at h
  · exact List.mem_singleton.mp h
  · cases h

/-!
## The findings of each rule
-/

@[simp] theorem about_unreadableFindings (reasons : List Reason) (line : Nat)
    (body : List Token) :
    about reasons (unreadableFindings line body) =
      if .invalidCharacter ∈ reasons then unreadableFindings line body else [] := by
  apply about_of_forall_eq
  intro f hf
  rcases exists_of_mem_unreadableFindings hf with ⟨_, _, _, -, -, rfl⟩
  rfl

@[simp] theorem about_trailingFindings (reasons : List Reason) (s : Style) (line : Nat)
    (body : List Token) :
    about reasons (trailingFindings s line body) =
      if .trailingWhitespace ∈ reasons then trailingFindings s line body else [] := by
  apply about_of_forall_eq
  intro f hf
  rw [(eq_of_mem_trailingFindings hf).2]

@[simp] theorem about_endingFindings (reasons : List Reason) (s : Style) (line : Nat)
    (body : List Token) (ending : EndOfLine) (next : Option Token) :
    about reasons (endingFindings s line body ending next) =
      if .endOfLineMismatch ∈ reasons then
        endingFindings s line body ending next
      else
        [] := by
  apply about_of_forall_eq
  intro f hf
  rw [eq_of_mem_endingFindings hf]

@[simp] theorem about_finalFindings (reasons : List Reason) (s : Style) (line : Nat)
    (rest : List Token) :
    about reasons (finalFindings s line rest) =
      if .noFinalNewline ∈ reasons then finalFindings s line rest else [] := by
  apply about_of_forall_eq
  intro f hf
  rw [eq_of_mem_finalFindings hf]

theorem about_indentFindings_of_not_mem {reasons : List Reason}
    (hstyle : .indentStyle ∉ reasons) (hsize : .indentSizeMismatch ∉ reasons) (s : Style)
    (line : Nat) (body : List Token) (isOver : Bool) :
    about reasons (indentFindings s line body isOver) = [] := by
  apply about_of_forall_not_mem
  intro f hf
  rcases eq_of_mem_indentFindings hf with ⟨-, rfl⟩ | ⟨_, -, -, rfl⟩
  · exact hstyle
  · exact hsize

theorem about_indentStyle_indentFindings {reasons : List Reason}
    (hstyle : .indentStyle ∈ reasons) (hsize : .indentSizeMismatch ∉ reasons) (s : Style)
    (line : Nat) (body : List Token) (isOver : Bool) :
    about reasons (indentFindings s line body isOver) =
      if (isOver || !isBlank body) && (indentRun body).any (isWrongIndent s) then
        [⟨line, 1, (indentRun body).length + 1, .indentStyle, none⟩]
      else
        [] := by
  simp only [indentFindings]
  split
  · simp [about, hstyle]
  · split
    · simp [about, hsize]
    · rfl

theorem about_indentSize_indentFindings (s : Style) (line : Nat) (body : List Token)
    (isOver : Bool) :
    about [.indentSizeMismatch] (indentFindings s line body isOver) =
      if !isBlank body && !(indentRun body).any (isWrongIndent s) &&
          s.indentSize.any ((indentRun body).length % ·.count ≠ 0) then
        [⟨line, 1, (indentRun body).length + 1, .indentSizeMismatch,
          some (indentRun body).length⟩]
      else
        [] := by
  cases hblank : isBlank body with
  | true =>
      simp only [indentFindings, hblank]
      split <;> simp [about]
  | false =>
      cases hwrong : (indentRun body).any (isWrongIndent s) with
      | true => simp [indentFindings, hblank, hwrong, about]
      | false =>
          simp only [indentFindings, hblank, hwrong, Bool.and_false, Bool.false_eq_true,
            if_false, Bool.not_false, Bool.true_and]
          split
          · rfl
          · rfl

end Layout

/-!
## Files
-/

namespace Style

open Layout

theorem preamble_cases (charset : Option Charset) (ts : List Token) :
    preamble charset ts = ([], ts) ∨
      (charset = some .utf8Bom ∧ preamble charset ts = ([bomNotFound], ts)) ∨
      ∃ us, ts = .bom :: us ∧ preamble charset ts = ([], us) := by
  unfold preamble
  split
  · exact Or.inr (Or.inr ⟨_, rfl, rfl⟩)
  · exact Or.inr (Or.inl ⟨rfl, rfl⟩)
  · exact Or.inr (Or.inr ⟨_, rfl, rfl⟩)
  · exact Or.inr (Or.inr ⟨_, rfl, rfl⟩)
  · exact Or.inl rfl

theorem preamble_of_mem {charset : Option Charset} {ts : List Token} {f : Finding}
    (h : f ∈ (preamble charset ts).1) :
    charset = some .utf8Bom ∧ (preamble charset ts).1 = [bomNotFound] ∧
      f = bomNotFound := by
  rcases preamble_cases charset ts with hpre | ⟨hbom, hpre⟩ | ⟨us, -, hpre⟩
  · rw [hpre] at h
    cases h
  · rw [hpre] at h ⊢
    exact ⟨hbom, rfl, List.mem_singleton.mp h⟩
  · rw [hpre] at h
    cases h

/-- The tokens that count for the lines of a file: all but a mark in the preamble. -/
def countedTokens (s : Style) (bytes : List UInt8) : List Token :=
  (preamble s.charset (s.decoder.tokens bytes)).2

theorem tokens_eq_countedTokens (s : Style) (bytes : List UInt8) :
    s.decoder.tokens bytes = s.countedTokens bytes ∨
      s.decoder.tokens bytes = .bom :: s.countedTokens bytes := by
  rcases preamble_cases s.charset (s.decoder.tokens bytes) with
    hpre | ⟨-, hpre⟩ | ⟨us, hts, hpre⟩
  · rw [countedTokens, hpre]
    exact Or.inl rfl
  · rw [countedTokens, hpre]
    exact Or.inl rfl
  · rw [countedTokens, hpre]
    exact Or.inr hts

theorem check_eq_findings (s : Style) (bytes : List UInt8) :
    s.check bytes =
      (preamble s.charset (s.decoder.tokens bytes)).1 ++
        (cut (s.countedTokens bytes)).findings s := by
  rw [← checkTokens_of_cuts s (cuts_cut (s.countedTokens bytes))]
  rfl

end Style
end FileStyle
