import FileStyle.Proofs.DecimalReading
import FileStyle.Proofs.RuleReferences

/-!
# Findings told by lines of a report

The line of a report that describes a finding quotes nothing, and the name of the file may
hold anything that also stands around it. Still the line can be taken apart. A reason holds
no blank, so that it ends at the first one, and numbers hold neither colons nor commas, so
that they start at the last two colons. Main statement: two lines with the same text tell
the same finding in the same file.
-/

namespace FileStyle

/-! ## Cutting at a separator -/

section Cutting

variable {α : Type} {sep : α} {xs ys us vs : List α}

theorem eq_of_first_cut (hxs : sep ∉ xs) (hys : sep ∉ ys)
    (h : xs ++ sep :: us = ys ++ sep :: vs) : xs = ys ∧ us = vs := by
  induction xs generalizing ys with
  | nil =>
      cases ys with
      | nil => exact ⟨rfl, (List.cons.inj h).right⟩
      | cons y ys =>
          have hsep : sep = y := (List.cons.inj h).left
          exact absurd (List.mem_cons.mpr (.inl hsep)) hys
  | cons x xs ih =>
      cases ys with
      | nil =>
          have hsep : x = sep := (List.cons.inj h).left
          exact absurd (List.mem_cons.mpr (.inl hsep.symm)) hxs
      | cons y ys =>
          have hrest := ih (List.not_mem_of_not_mem_cons hxs) (List.not_mem_of_not_mem_cons hys)
            (List.cons.inj h).right
          exact ⟨congrArg₂ _ (List.cons.inj h).left hrest.left, hrest.right⟩

theorem eq_of_last_cut (hus : sep ∉ us) (hvs : sep ∉ vs)
    (h : xs ++ sep :: us = ys ++ sep :: vs) : xs = ys ∧ us = vs := by
  have hreverse : us.reverse ++ sep :: xs.reverse = vs.reverse ++ sep :: ys.reverse := by
    simpa using congrArg List.reverse h
  have hcut := eq_of_first_cut (by simpa using hus) (by simpa using hvs) hreverse
  exact ⟨List.reverse_injective hcut.right, List.reverse_injective hcut.left⟩

end Cutting

/-! ## Numbers -/

namespace Text

theorem decimalOfNat_injective : Function.Injective decimalOfNat := by
  intro m n h
  rcases exists_digits_of_decimalOfNat m with ⟨ds, hds, rfl⟩
  rcases exists_digits_of_decimalOfNat n with ⟨es, hes, rfl⟩
  rw [h, hes] at hds
  rw [List.map_injective_iff.mpr (Option.some_injective Nat) hds]

theorem mem_decimalOfInt {n : Int} {c : Char} (h : c ∈ decimalOfInt n) :
    c ∈ '-' :: digitCharacters := by
  cases n with
  | ofNat n => exact List.mem_cons_of_mem _ (mem_decimalOfNat h)
  | negSucc n =>
      rcases List.mem_cons.mp h with rfl | hdigit
      · exact List.mem_cons_self
      · exact List.mem_cons_of_mem _ (mem_decimalOfNat hdigit)

theorem decimalOfInt_injective : Function.Injective decimalOfInt := by
  have hsign : ∀ {s : List Char} {n : Nat}, '-' :: s ≠ decimalOfNat n := by
    intro s n heq
    have hmem : '-' ∈ decimalOfNat n := heq ▸ List.mem_cons_self
    exact absurd (mem_decimalOfNat hmem) (by decide)
  intro a b h
  cases a with
  | ofNat m =>
      cases b with
      | ofNat n => rw [decimalOfNat_injective h]
      | negSucc n => exact absurd h.symm hsign
  | negSucc m =>
      cases b with
      | ofNat n => exact absurd h hsign
      | negSucc n =>
          have hsucc : m + 1 = n + 1 := decimalOfNat_injective (List.cons.inj h).right
          rw [Nat.succ.inj hsucc]

theorem signedDecimal_injective : Function.Injective signedDecimal := by
  intro a b h
  exact decimalOfInt_injective (String.ofList_injective h)

end Text

namespace Finding

open Text

/-! ## Reasons -/

theorem lengthText_injective :
    Function.Injective fun n : Option Int => (n.map signedDecimal).getD "None" := by
  have hword : ∀ n : Int, signedDecimal n ≠ "None" := by
    intro n heq
    have hmem : 'N' ∈ decimalOfInt n := by
      have hchars := congrArg String.toList heq
      rw [signedDecimal, String.toList_ofList] at hchars
      rw [hchars]
      decide
    exact absurd (mem_decimalOfInt hmem) (by decide)
  intro a b h
  cases a with
  | none =>
      cases b with
      | none => rfl
      | some n => exact absurd h.symm (hword n)
  | some m =>
      cases b with
      | none => exact absurd h (hword m)
      | some n => rw [signedDecimal_injective h]

theorem reasonText_of_mismatch {f : Finding} (h : f.reason = .indentSizeMismatch) :
    f.reasonText = f.reason.label ++ "(" ++
      (f.indentLength.map signedDecimal).getD "None" ++ ")" := by
  rw [reasonText, if_pos h]

theorem reasonText_of_ne {f : Finding} (h : f.reason ≠ .indentSizeMismatch) :
    f.reasonText = f.reason.label := by
  rw [reasonText, if_neg h]

theorem bracket_mem_reasonText_iff (f : Finding) :
    '(' ∈ f.reasonText.toList ↔ f.reason = .indentSizeMismatch := by
  have hlabel : ∀ r ∈ Reason.all, '(' ∉ r.label.toList := by decide
  by_cases h : f.reason = .indentSizeMismatch
  · rw [reasonText_of_mismatch h]
    simp [h]
  · rw [reasonText_of_ne h]
    exact iff_of_false (hlabel f.reason f.reason.mem_all) h

theorem blank_not_mem_reasonText (f : Finding) : ' ' ∉ f.reasonText.toList := by
  have hlabel : ∀ r ∈ Reason.all, ' ' ∉ r.label.toList := by decide
  have hnone : ' ' ∉ f.reason.label.toList := hlabel f.reason f.reason.mem_all
  have hlength : ' ' ∉ ((f.indentLength.map signedDecimal).getD "None").toList := by
    cases f.indentLength with
    | none => decide
    | some n =>
        intro hmem
        rw [Option.map_some, Option.getD_some, signedDecimal, String.toList_ofList] at hmem
        exact absurd (mem_decimalOfInt hmem) (by decide)
  by_cases h : f.reason = .indentSizeMismatch
  · rw [reasonText_of_mismatch h]
    simp [hnone, hlength]
  · rwa [reasonText_of_ne h]

theorem reasonText_eq_iff {f g : Finding} :
    f.reasonText = g.reasonText ↔
      f.reason = g.reason ∧
        (f.reason = .indentSizeMismatch → f.indentLength = g.indentLength) := by
  constructor
  · intro h
    have hsame : f.reason = .indentSizeMismatch ↔ g.reason = .indentSizeMismatch := by
      rw [← bracket_mem_reasonText_iff, ← bracket_mem_reasonText_iff, h]
    by_cases hf : f.reason = .indentSizeMismatch
    · have hg : g.reason = .indentSizeMismatch := hsame.mp hf
      rw [reasonText_of_mismatch hf, reasonText_of_mismatch hg, hf, hg] at h
      have hlength := (String.append_right_inj _).mp ((String.append_left_inj _).mp h)
      exact ⟨hf.trans hg.symm, fun _ => lengthText_injective hlength⟩
    · have hg : g.reason ≠ .indentSizeMismatch := fun hg => hf (hsame.mpr hg)
      rw [reasonText_of_ne hf, reasonText_of_ne hg] at h
      exact ⟨Reason.label_injective h, fun hmismatch => absurd hmismatch hf⟩
  · intro h
    rcases h with ⟨hreason, hlength⟩
    by_cases hf : f.reason = .indentSizeMismatch
    · rw [reasonText_of_mismatch hf, reasonText_of_mismatch (hreason ▸ hf), hreason, hlength hf]
    · rw [reasonText_of_ne hf, reasonText_of_ne (hreason ▸ hf), hreason]

/-! ## Places -/

theorem not_mem_signedDecimal {c : Char} (h : c ∉ '-' :: digitCharacters) (n : Int) :
    c ∉ (signedDecimal n).toList := by
  rw [signedDecimal, String.toList_ofList]
  exact fun hmem => h (mem_decimalOfInt hmem)

theorem rangeText_of_point {f : Finding} (h : f.start = f.stop) :
    f.rangeText = signedDecimal f.start := by
  rw [rangeText, if_pos h]

theorem toList_rangeText_of_span {f : Finding} (h : f.start ≠ f.stop) :
    f.rangeText.toList =
      (signedDecimal f.start).toList ++ ',' :: (signedDecimal f.stop).toList := by
  rw [rangeText, if_neg h]
  simp

theorem comma_mem_rangeText_iff (f : Finding) :
    ',' ∈ f.rangeText.toList ↔ f.start ≠ f.stop := by
  by_cases h : f.start = f.stop
  · rw [rangeText_of_point h]
    exact iff_of_false (not_mem_signedDecimal (by decide) f.start) (not_not.mpr h)
  · rw [toList_rangeText_of_span h]
    simp [h]

theorem colon_not_mem_rangeText (f : Finding) : ':' ∉ f.rangeText.toList := by
  have hnumber : ∀ n : Int, ':' ∉ (signedDecimal n).toList := not_mem_signedDecimal (by decide)
  by_cases h : f.start = f.stop
  · rw [rangeText_of_point h]
    exact hnumber f.start
  · rw [toList_rangeText_of_span h]
    simp [hnumber]

theorem rangeText_eq_iff {f g : Finding} :
    f.rangeText = g.rangeText ↔ f.start = g.start ∧ f.stop = g.stop := by
  constructor
  · intro h
    have hsame : f.start ≠ f.stop ↔ g.start ≠ g.stop := by
      rw [← comma_mem_rangeText_iff, ← comma_mem_rangeText_iff, h]
    by_cases hf : f.start = f.stop
    · have hg : g.start = g.stop := not_not.mp fun hg => hsame.mpr hg hf
      rw [rangeText_of_point hf, rangeText_of_point hg] at h
      have hstart : f.start = g.start := signedDecimal_injective h
      exact ⟨hstart, hf.symm.trans (hstart.trans hg)⟩
    · have hchars := congrArg String.toList h
      rw [toList_rangeText_of_span hf, toList_rangeText_of_span (hsame.mp hf)] at hchars
      have hcut := eq_of_first_cut (not_mem_signedDecimal (by decide) f.start)
        (not_mem_signedDecimal (by decide) g.start) hchars
      exact ⟨signedDecimal_injective (String.toList_injective hcut.left),
        signedDecimal_injective (String.toList_injective hcut.right)⟩
  · intro h
    rw [rangeText, rangeText, h.left, h.right]

/-! ## Lines of a report -/

theorem toList_describe (f : Finding) (file : String) :
    (f.describe file).toList =
      "error: ".toList ++ (f.reasonText.toList ++ ' ' :: ("at ".toList ++
        ((file.toList ++ ':' :: (signedDecimal f.line).toList) ++ ':' :: f.rangeText.toList))) := by
  simp [describe]

/-- What a line of a report tells: the file, the place and the reason, and the length of an
indentation only where the reason is about it. -/
theorem describe_eq_describe_iff {f g : Finding} {file other : String} :
    f.describe file = g.describe other ↔
      file = other ∧ f.line = g.line ∧ f.start = g.start ∧ f.stop = g.stop ∧
        f.reason = g.reason ∧
        (f.reason = .indentSizeMismatch → f.indentLength = g.indentLength) := by
  constructor
  · intro h
    have hchars := congrArg String.toList h
    rw [toList_describe, toList_describe] at hchars
    have hreason := eq_of_first_cut (blank_not_mem_reasonText f) (blank_not_mem_reasonText g)
      (List.append_cancel_left hchars)
    have hplace := eq_of_last_cut (colon_not_mem_rangeText f) (colon_not_mem_rangeText g)
      (List.append_cancel_left hreason.right)
    have hfile := eq_of_last_cut (not_mem_signedDecimal (by decide) f.line)
      (not_mem_signedDecimal (by decide) g.line) hplace.left
    have hrange := rangeText_eq_iff.mp (String.toList_injective hplace.right)
    exact ⟨String.toList_injective hfile.left,
      signedDecimal_injective (String.toList_injective hfile.right), hrange.left, hrange.right,
      reasonText_eq_iff.mp (String.toList_injective hreason.left)⟩
  · intro h
    rcases h with ⟨hfile, hline, hstart, hstop, hreason⟩
    rw [describe, describe, reasonText_eq_iff.mpr hreason, hfile, hline,
      rangeText_eq_iff.mpr ⟨hstart, hstop⟩]

def TellsOwnLength (f : Finding) : Prop :=
  f.indentLength.isSome → f.reason = .indentSizeMismatch

instance (f : Finding) : Decidable f.TellsOwnLength :=
  inferInstanceAs (Decidable (f.indentLength.isSome → f.reason = .indentSizeMismatch))

theorem TellsOwnLength.indentLength_eq_none {f : Finding} (h : f.TellsOwnLength)
    (hreason : f.reason ≠ .indentSizeMismatch) : f.indentLength = none := by
  cases hlength : f.indentLength with
  | none => rfl
  | some n => exact absurd (h (by simp [hlength])) hreason

theorem tellsOwnLength_of_mem_check {s : Style} {bytes : List UInt8} {f : Finding}
    (h : f ∈ s.check bytes) : f.TellsOwnLength := by
  by_cases hmark : f.reason = .bomNotFound
  · rw [(Style.head?_check h hmark).right]
    decide
  · rcases Style.exists_fits_of_mem_check h hmark with ⟨_, _, -, hfits⟩
    exact hfits.measured.left.mp

/-- A line of a report tells its finding: if two lines have the same text, they are about the
same file and the same finding, whatever the names of the files hold. -/
theorem describe_determines {f g : Finding} (hf : f.TellsOwnLength) (hg : g.TellsOwnLength)
    (file other : String) :
    f.describe file = g.describe other ↔ file = other ∧ f = g := by
  rw [describe_eq_describe_iff]
  constructor
  · intro h
    rcases h with ⟨hfile, hline, hstart, hstop, hreason, hlength⟩
    have hsame : f.indentLength = g.indentLength := by
      by_cases hmismatch : f.reason = .indentSizeMismatch
      · exact hlength hmismatch
      · rw [hf.indentLength_eq_none hmismatch, hg.indentLength_eq_none (hreason ▸ hmismatch)]
    cases f
    cases g
    cases hline
    cases hstart
    cases hstop
    cases hreason
    cases hsame
    exact ⟨hfile, rfl⟩
  · intro h
    rcases h with ⟨hfile, rfl⟩
    exact ⟨hfile, rfl, rfl, rfl, rfl, fun _ => rfl⟩

/-- The name of the one file ends like a place in the other, and a finding of a check is told
from one that is made up. -/
theorem describe_determines_of_names_like_places :
    let s : Style := { indentSize := some ⟨2, Nat.two_pos⟩ }
    let f : Finding := ⟨1, 1, 2, .indentSizeMismatch, some 1⟩
    let g : Finding := ⟨2, 3, 3, .noFinalNewline, none⟩
    s.check [0x20, 0x61] = [f] ∧ f.TellsOwnLength ∧ g.TellsOwnLength ∧
      f.describe "a at b" = "error: IndentSizeMismatch(1) at a at b:1:1,2" ∧
      g.describe "a at b:1" = "error: NoFinalNewline at a at b:1:2:3" ∧
      f.describe "a at b" ≠ g.describe "a at b:1" := by
  intro s f g
  have hcheck : s.check [0x20, 0x61] = [f] := by decide +kernel
  have hf : f.TellsOwnLength :=
    tellsOwnLength_of_mem_check (hcheck ▸ List.mem_cons_self : f ∈ s.check [0x20, 0x61])
  have hg : g.TellsOwnLength := by decide
  refine ⟨hcheck, hf, hg, by decide +kernel, by decide +kernel, ?_⟩
  intro h
  exact absurd ((describe_determines hf hg _ _).mp h).left (by decide)

end Finding
end FileStyle
