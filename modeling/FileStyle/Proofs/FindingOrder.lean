import FileStyle.Proofs.FindingPlace

/-!
# The order of findings

The findings of a file come in the order of its text. Each rule blames a line at most
once, except that every character that cannot be read is blamed at its own column, and
each finding is about columns that its line has.
-/

namespace FileStyle

open Layout Token

/-- Both reasons about an indentation belong together: a line has one of them at most. -/
def Reason.group : Reason → Reason
  | .indentSizeMismatch => .indentStyle
  | r => r

namespace Finding

/-!
## Findings that precede each other
-/

/-- The first finding may come before the second: its line is earlier, or it is the same
line and the first finding does not start later. Two findings of one group on a line are
about characters at different columns. -/
def Precedes (f g : Finding) : Prop :=
  f.line < g.line ∨
    f.line = g.line ∧ f.start ≤ g.start ∧
      (f.reason.group = g.reason.group → f.reason = .invalidCharacter ∧ f.start < g.start)

theorem precedes_of_group_ne {f g : Finding} (hline : f.line = g.line)
    (hstart : f.start ≤ g.start) (hgroup : f.reason.group ≠ g.reason.group) :
    f.Precedes g :=
  Or.inr ⟨hline, hstart, fun h => absurd h hgroup⟩

theorem ne_of_precedes {f g : Finding} (h : f.Precedes g) : f ≠ g := by
  rintro rfl
  rcases h with hline | ⟨-, -, hgroup⟩
  · exact Int.lt_irrefl _ hline
  · exact Int.lt_irrefl _ (hgroup rfl).2

theorem in_order_of_precedes {f g : Finding} (h : f.Precedes g) :
    f.line < g.line ∨ f.line = g.line ∧ f.start ≤ g.start := by
  rcases h with hline | ⟨hline, hstart, -⟩
  · exact Or.inl hline
  · exact Or.inr ⟨hline, hstart⟩

theorem countP_le_one {found : List Finding} (h : found.Pairwise Precedes)
    {p : Finding → Bool}
    (hp : ∀ f g : Finding, f.Precedes g → p f = true → p g = false) :
    found.countP p ≤ 1 := by
  induction found with
  | nil => simp
  | cons f found ih =>
      rcases List.pairwise_cons.mp h with ⟨hfirst, hrest⟩
      cases hf : p f with
      | false =>
          rw [List.countP_cons_of_neg (by simp [hf])]
          exact ih hrest
      | true =>
          have hnone : found.countP p = 0 := by
            apply List.countP_eq_zero.mpr
            intro g hg
            simp [hp f g (hfirst g hg) hf]
          rw [List.countP_cons_of_pos hf, hnone]

theorem countP_line_le_one (group : Reason) {found : List Finding}
    (h : found.Pairwise Precedes) {reasons : List Reason}
    (hgroup : ∀ r ∈ reasons, r.group = group)
    (hunreadable : .invalidCharacter ∉ reasons) (line : Int) :
    found.countP (fun f => f.line = line ∧ f.reason ∈ reasons) ≤ 1 := by
  apply countP_le_one h
  intro f g hfg hf
  rw [decide_eq_true_eq] at hf
  apply decide_eq_false
  rintro ⟨hgline, hgreason⟩
  rcases hfg with hline | ⟨-, -, hsame⟩
  · rw [hf.1, hgline] at hline
    exact Int.lt_irrefl _ hline
  · have heq := hsame ((hgroup _ hf.2).trans (hgroup _ hgreason).symm)
    rw [heq.1] at hf
    exact hunreadable hf.2

theorem countP_column_le_one {found : List Finding} (h : found.Pairwise Precedes)
    (line column : Int) :
    found.countP
      (fun f => f.line = line ∧ f.start = column ∧ f.reason = .invalidCharacter) ≤ 1 := by
  apply countP_le_one h
  intro f g hfg hf
  rw [decide_eq_true_eq] at hf
  apply decide_eq_false
  rintro ⟨hgline, hgcolumn, hgreason⟩
  rcases hfg with hline | ⟨-, -, hsame⟩
  · rw [hf.1, hgline] at hline
    exact Int.lt_irrefl _ hline
  · have heq := hsame (by rw [hf.2.2, hgreason])
    rw [hf.2.1, hgcolumn] at heq
    exact Int.lt_irrefl _ heq.2

end Finding

namespace Layout

open Finding

/-!
## The order in one line
-/

theorem isIndent_of_isUnreadable {t : Token} (h : t.isUnreadable = true) :
    t.isIndent = false := by
  cases t with
  | bom => rfl
  | invalid bytes => rfl
  | newline kind => rfl
  | indent kind => cases h
  | valid bytes => rfl

variable {s : Style} {line : Nat} {body : List Token} {f : Finding}

theorem pairwise_optional {p : Prop} [Decidable p] :
    (if p then [f] else []).Pairwise Precedes := by
  split
  · exact List.pairwise_singleton _ _
  · exact List.Pairwise.nil

theorem pairwise_indentFindings (isOver : Bool) :
    (indentFindings s line body isOver).Pairwise Precedes := by
  simp only [indentFindings]
  split
  · exact List.pairwise_singleton _ _
  · exact pairwise_optional

theorem pairwise_unreadableFindings : (unreadableFindings line body).Pairwise Precedes := by
  induction body using List.reverseRecOn with
  | nil => exact List.Pairwise.nil
  | append_singleton body last ih =>
      rw [unreadableFindings_append]
      apply List.pairwise_append.mpr
      refine ⟨ih, pairwise_optional, ?_⟩
      intro f hf g hg
      rcases exists_of_mem_unreadableFindings hf with ⟨before, t, after, rfl, -, rfl⟩
      split at hg
      · rw [List.mem_singleton.mp hg]
        have hlt : (before.length : Int) + 1 < (before ++ t :: after).length + 1 := by
          simp only [List.length_append, List.length_cons]
          omega
        exact Or.inr ⟨rfl, Int.le_of_lt hlt, fun _ => ⟨rfl, hlt⟩⟩
      · cases hg

theorem pairwise_opening (isOver : Bool) :
    (indentFindings s line body isOver ++ unreadableFindings line body).Pairwise
      Precedes := by
  apply List.pairwise_append.mpr
  refine ⟨pairwise_indentFindings isOver, pairwise_unreadableFindings, ?_⟩
  intro f hf g hg
  rcases exists_of_mem_unreadableFindings hg with ⟨before, t, after, rfl, -, rfl⟩
  rcases eq_of_mem_indentFindings hf with ⟨-, rfl⟩ | ⟨_, -, -, rfl⟩
  · exact precedes_of_group_ne rfl (by simp only; omega) (by simp [Reason.group])
  · exact precedes_of_group_ne rfl (by simp only; omega) (by simp [Reason.group])

/-- Indentation and unreadable characters are blamed no later than the white space at the
end of the line starts. -/
theorem precedes_of_mem_opening {isOver : Bool}
    (h : f ∈ indentFindings s line body isOver ++ unreadableFindings line body)
    {g : Finding} (hline : g.line = line)
    (hstart : (body.length : Int) - trailingLength body + 1 ≤ g.start)
    (hgroup : g.reason.group ∉ [.indentStyle, .invalidCharacter]) : f.Precedes g := by
  have hle := trailingLength_le body
  have hstyle : Reason.indentStyle ≠ g.reason.group := by
    intro heq
    simp [← heq] at hgroup
  have hunreadable : Reason.invalidCharacter ≠ g.reason.group := by
    intro heq
    simp [← heq] at hgroup
  rcases List.mem_append.mp h with hindent | hblamed
  · rcases eq_of_mem_indentFindings hindent with ⟨-, rfl⟩ | ⟨_, -, -, rfl⟩
    · exact precedes_of_group_ne hline.symm (by simp only; omega) hstyle
    · exact precedes_of_group_ne hline.symm (by simp only; omega) hstyle
  · rcases exists_of_mem_unreadableFindings hblamed with
      ⟨before, t, after, rfl, ht, rfl⟩
    have hafter :=
      trailingLength_le_of_not_isIndent before (isIndent_of_isUnreadable ht) after
    have hlength : (before ++ t :: after).length = before.length + after.length + 1 := by
      simp only [List.length_append, List.length_cons]
      omega
    exact precedes_of_group_ne hline.symm (by simp only; omega) hunreadable

theorem pairwise_lineFindings (l : Line) (next : Option Token) :
    (lineFindings s line l next).Pairwise Precedes := by
  have hle := trailingLength_le l.body
  rw [lineFindings]
  apply List.pairwise_append.mpr
  refine ⟨?_, pairwise_optional, ?_⟩
  · apply List.pairwise_append.mpr
    refine ⟨pairwise_opening true, pairwise_optional, ?_⟩
    intro f hf g hg
    rw [(eq_of_mem_trailingFindings hg).2]
    exact precedes_of_mem_opening hf rfl (Int.le_refl _) (by simp [Reason.group])
  · intro f hf g hg
    rw [eq_of_mem_endingFindings hg]
    rcases List.mem_append.mp hf with hopening | htrailing
    · exact precedes_of_mem_opening hopening rfl (by simp only; omega)
        (by simp [Reason.group])
    · rw [(eq_of_mem_trailingFindings htrailing).2]
      exact precedes_of_group_ne rfl (by simp only; omega) (by simp [Reason.group])

theorem pairwise_rest (rest : List Token) :
    (openFindings s line rest ++ finalFindings s line rest).Pairwise Precedes := by
  apply List.pairwise_append.mpr
  refine ⟨pairwise_opening false, pairwise_optional, ?_⟩
  intro f hf g hg
  rw [eq_of_mem_finalFindings hg]
  exact precedes_of_mem_opening hf rfl (by simp only; omega) (by simp [Reason.group])

/-!
## All lines
-/

theorem pairwise_findingsFrom (line : Nat) (ls : List Line) (rest : List Token) :
    (findingsFrom s line ls rest).Pairwise Precedes := by
  induction ls generalizing line with
  | nil => exact pairwise_rest rest
  | cons l ls ih =>
      apply List.pairwise_append.mpr
      refine ⟨pairwise_lineFindings l _, ih (line + 1), ?_⟩
      intro f hf g hg
      have hfline := (fits_of_mem_lineFindings hf).line_eq
      have hgline := line_le_of_mem_findingsFrom hg
      exact Or.inl (by omega)

theorem reason_ne_of_about_eq_nil {r : Reason} {found : List Finding}
    (h : about [r] found = []) (hf : f ∈ found) : f.reason ≠ r := by
  rintro rfl
  have hmem : f ∈ about [f.reason] found := mem_about.mpr ⟨hf, by simp⟩
  rw [h] at hmem
  cases hmem

theorem getLast?_findingsFrom {ls : List Line} {rest : List Token}
    (h : f ∈ findingsFrom s line ls rest) (hr : f.reason = .noFinalNewline) :
    (findingsFrom s line ls rest).getLast? = some f := by
  induction ls generalizing line with
  | nil =>
      rw [findingsFrom, List.getLast?_append]
      rcases List.mem_append.mp h with hopen | hfinal
      · have hnone : about [.noFinalNewline] (openFindings s line rest) = [] := by
          simp [openFindings, about_indentFindings_of_not_mem]
        exact absurd hr (reason_ne_of_about_eq_nil hnone hopen)
      · rw [eq_of_mem_finalFindings hfinal]
        unfold finalFindings at hfinal ⊢
        split at hfinal
        · next hrule => simp [hrule]
        · cases hfinal
  | cons l ls ih =>
      rw [findingsFrom, List.getLast?_append]
      rcases List.mem_append.mp h with hline | hmore
      · have hnone : about [.noFinalNewline]
            (lineFindings s line l (Layout.mk ls rest).tokens.head?) = [] := by
          simp [lineFindings, about_indentFindings_of_not_mem]
        exact absurd hr (reason_ne_of_about_eq_nil hnone hline)
      · rw [ih hmore]
        rfl

end Layout

namespace Style

open Finding

/-!
## Files
-/

structure ListsInOrder (s : Style) (l : Layout) (found : List Finding) : Prop where
  in_order : found.Pairwise fun f g => f.line < g.line ∨ f.line = g.line ∧ f.start ≤ g.start
  nodup : found.Nodup
  indentation_once : ∀ line : Int,
    found.countP
      (fun f => f.line = line ∧ f.reason ∈ [.indentStyle, .indentSizeMismatch]) ≤ 1
  trailing_once : ∀ line : Int,
    found.countP (fun f => f.line = line ∧ f.reason ∈ [.trailingWhitespace]) ≤ 1
  ending_once : ∀ line : Int,
    found.countP (fun f => f.line = line ∧ f.reason ∈ [.endOfLineMismatch]) ≤ 1
  character_once : ∀ line column : Int,
    found.countP
      (fun f => f.line = line ∧ f.start = column ∧ f.reason = .invalidCharacter) ≤ 1
  mark_first : ∀ f ∈ found, f.reason = .bomNotFound →
    found.head? = some f ∧ f = ⟨1, 0, 0, .bomNotFound, none⟩
  final_last : ∀ f ∈ found, f.reason = .noFinalNewline →
    found.getLast? = some f ∧ f.start = f.stop
  span : ∀ f ∈ found, f.reason ≠ .bomNotFound → f.reason ≠ .noFinalNewline →
    f.start < f.stop
  within : ∀ f ∈ found, f.reason ≠ .bomNotFound → f.Within l
  measured : ∀ f ∈ found, f.Measured s

theorem bomNotFound_precedes {f : Finding} (hline : 1 ≤ f.line) (hstart : 1 ≤ f.start)
    (hunmarked : f.reason ≠ .bomNotFound) : bomNotFound.Precedes f := by
  have hgroup : Reason.bomNotFound ≠ f.reason.group := by
    cases hreason : f.reason <;> simp [hreason, Reason.group] at hunmarked ⊢
  rcases Int.lt_or_eq_of_le hline with hlt | heq
  · exact Or.inl hlt
  · exact precedes_of_group_ne heq (Int.le_trans (by decide) hstart) hgroup

theorem pairwise_check (s : Style) (bytes : List UInt8) :
    (s.check bytes).Pairwise Precedes := by
  rw [check_eq_findings]
  apply List.pairwise_append.mpr
  refine ⟨?_, pairwise_findingsFrom 1 _ _, ?_⟩
  · rcases preamble_cases s.charset (s.decoder.tokens bytes) with
      hpre | ⟨-, hpre⟩ | ⟨us, -, hpre⟩
    · simp [hpre]
    · simp [hpre]
    · simp [hpre]
  · intro f hf g hg
    rcases exists_fits_of_mem_findingsFrom hg with ⟨n, body, -, hfits⟩
    have hline := hfits.line_eq
    rw [(preamble_of_mem hf).2.2]
    exact bomNotFound_precedes (by omega) hfits.start_pos hfits.unmarked

theorem head?_check {s : Style} {bytes : List UInt8} {f : Finding} (h : f ∈ s.check bytes)
    (hr : f.reason = .bomNotFound) : (s.check bytes).head? = some f ∧ f = bomNotFound := by
  rw [check_eq_findings] at h ⊢
  rcases List.mem_append.mp h with hpre | hlines
  · rcases preamble_of_mem hpre with ⟨-, hsingle, rfl⟩
    rw [hsingle]
    exact ⟨rfl, rfl⟩
  · rcases exists_fits_of_mem_findingsFrom hlines with ⟨n, body, -, hfits⟩
    exact absurd hr hfits.unmarked

theorem getLast?_check {s : Style} {bytes : List UInt8} {f : Finding}
    (h : f ∈ s.check bytes) (hr : f.reason = .noFinalNewline) :
    (s.check bytes).getLast? = some f := by
  rw [check_eq_findings] at h ⊢
  rcases List.mem_append.mp h with hpre | hlines
  · rw [(preamble_of_mem hpre).2.2] at hr
    cases hr
  · rw [List.getLast?_append, findings, getLast?_findingsFrom hlines hr]
    rfl

/-- The findings of a file come in the order of its lines and columns and none comes
twice; a line has one finding of a kind at most, and one for each column about characters.
A missing byte-order mark comes first and a missing terminator at the end last, and every
other finding is a span of columns of its line. A mark in the preamble is no column. -/
theorem check_listsInOrder (s : Style) (bytes : List UInt8) :
    s.ListsInOrder (cut (s.decoder.tokens bytes)) (s.check bytes) ∧
      ∀ f ∈ s.check bytes, f.reason ≠ .bomNotFound →
        f.Within (cut (s.countedTokens bytes)) := by
  have hpairs := pairwise_check s bytes
  have hwithin : ∀ f ∈ s.check bytes, f.reason ≠ .bomNotFound →
      f.Within (cut (s.countedTokens bytes)) := by
    intro f hf hunmarked
    rcases exists_fits_of_mem_check hf hunmarked with ⟨n, body, hbody, hfits⟩
    exact within_of_fits hbody hfits
  constructor
  · exact
      { in_order := hpairs.imp in_order_of_precedes
        nodup := hpairs.imp ne_of_precedes
        indentation_once :=
          countP_line_le_one .indentStyle hpairs (by simp [Reason.group])
            (by simp)
        trailing_once :=
          countP_line_le_one .trailingWhitespace hpairs (by simp [Reason.group])
            (by simp)
        ending_once :=
          countP_line_le_one .endOfLineMismatch hpairs (by simp [Reason.group])
            (by simp)
        character_once := countP_column_le_one hpairs
        mark_first := fun f hf hr => head?_check hf hr
        final_last := by
          intro f hf hr
          have hunmarked : f.reason ≠ .bomNotFound := by simp [hr]
          rcases exists_fits_of_mem_check hf hunmarked with ⟨_, _, -, hfits⟩
          exact ⟨getLast?_check hf hr, hfits.point hr⟩
        span := by
          intro f hf hunmarked hr
          rcases exists_fits_of_mem_check hf hunmarked with ⟨_, _, -, hfits⟩
          exact hfits.span hr
        within := by
          intro f hf hunmarked
          have hcounted := hwithin f hf hunmarked
          rcases tokens_eq_countedTokens s bytes with htokens | htokens
          · rwa [htokens]
          · rw [htokens, cut_cons_of_unbroken rfl]
            exact within_prepend hcounted [.bom]
        measured := by
          intro f hf
          by_cases hr : f.reason = .bomNotFound
          · rw [(head?_check hf hr).2]
            exact measured_of_none rfl (by simp [bomNotFound])
          · rcases exists_fits_of_mem_check hf hr with ⟨_, _, -, hfits⟩
            exact hfits.measured }
  · exact hwithin

/-- Two lines with findings for all seven reasons. -/
theorem check_listsInOrder_of_all_reasons :
    let s : Style :=
      { indentStyle := some .space
        indentSize := some ⟨2, Nat.two_pos⟩
        endOfLine := some .lf
        charset := some .utf8Bom
        trimTrailingWhitespace := some true
        insertFinalNewline := some true }
    let bytes : List UInt8 := [0x09, 0xFF, 0x20, 0x0D, 0x0A, 0x20, 0x61]
    s.check bytes =
        [⟨1, 0, 0, .bomNotFound, none⟩, ⟨1, 1, 2, .indentStyle, none⟩,
          ⟨1, 2, 3, .invalidCharacter, none⟩, ⟨1, 3, 4, .trailingWhitespace, none⟩,
          ⟨1, 4, 5, .endOfLineMismatch, none⟩, ⟨2, 1, 2, .indentSizeMismatch, some 1⟩,
          ⟨2, 3, 3, .noFinalNewline, none⟩] ∧
      s.ListsInOrder (cut (s.decoder.tokens bytes)) (s.check bytes) := by
  intro s bytes
  exact ⟨by decide +kernel, (check_listsInOrder s bytes).1⟩

end Style
end FileStyle
