import FileStyle.Proofs.FindingsAbout

/-!
# The place of a finding

Each finding of a file is about columns of one of its lines. Main statement: the findings
of lines are about lines that are there, and about columns that these lines have or the
place after them.
-/

namespace FileStyle

open Layout Token

def Layout.bodies (l : Layout) : List (List Token) :=
  l.lines.map (·.body) ++ if l.rest = [] then [] else [l.rest]

namespace Finding

/-- The finding is about columns of a line of the layout, or about the place after its
last column, where the terminator stands. -/
def Within (l : Layout) (f : Finding) : Prop :=
  ∃ n body, l.bodies[n]? = some body ∧ f.line = (n + 1 : Nat) ∧ 1 ≤ f.start ∧
    f.stop ≤ body.length + 2

/-- Only a finding about the length of an indentation tells a length: that of its span,
which is no multiple of the size that the style asks for. -/
def Measured (s : Style) (f : Finding) : Prop :=
  (f.indentLength.isSome ↔ f.reason = .indentSizeMismatch) ∧
    ∀ n, f.indentLength = some n → n = f.stop - f.start ∧
      ∃ size, s.indentSize = some size ∧ ¬ (size.count : Int) ∣ n

structure Fits (s : Style) (line : Nat) (body : List Token) (f : Finding) : Prop where
  line_eq : f.line = line
  start_pos : 1 ≤ f.start
  stop_le : f.stop ≤ body.length + 2
  unmarked : f.reason ≠ .bomNotFound
  span : f.reason ≠ .noFinalNewline → f.start < f.stop
  point : f.reason = .noFinalNewline → f.start = f.stop
  measured : f.Measured s

theorem measured_of_none {s : Style} {f : Finding} (hnone : f.indentLength = none)
    (hreason : f.reason ≠ .indentSizeMismatch) : f.Measured s := by
  constructor
  · simp [hnone, hreason]
  · intro n hn
    rw [hnone] at hn
    cases hn

end Finding

namespace Layout

open Finding

/-!
## One line
-/

theorem length_indentRun_le (body : List Token) :
    (indentRun body).length ≤ body.length :=
  (List.takeWhile_prefix isIndent).length_le

theorem trailingLength_le (body : List Token) : trailingLength body ≤ body.length := by
  have hle := (List.takeWhile_prefix isIndent (l := body.reverse)).length_le
  rwa [List.length_reverse] at hle

variable {s : Style} {line : Nat} {body : List Token} {f : Finding}

theorem fits_of_span {start stop : Int} {r : Reason} (hstart : 1 ≤ start)
    (hspan : start < stop) (hstop : stop ≤ body.length + 2)
    (hr : r ∉ [.indentSizeMismatch, .bomNotFound, .noFinalNewline]) :
    Fits s line body ⟨line, start, stop, r, none⟩ where
  line_eq := rfl
  start_pos := hstart
  stop_le := hstop
  unmarked := by
    rintro rfl
    simp at hr
  span := fun _ => hspan
  point := by
    rintro rfl
    simp at hr
  measured := by
    apply measured_of_none rfl
    rintro rfl
    simp at hr

theorem fits_of_mem_indentFindings {isOver : Bool}
    (h : f ∈ indentFindings s line body isOver) : f.Fits s line body := by
  have hle := length_indentRun_le body
  rcases eq_of_mem_indentFindings h with ⟨hwrong, rfl⟩ | ⟨size, hsize, hmod, rfl⟩
  · have hpos : 0 < (indentRun body).length := by
      rcases List.any_eq_true.mp hwrong with ⟨t, ht, -⟩
      exact List.length_pos_of_mem ht
    exact fits_of_span (Int.le_refl 1) (by omega) (by omega) (by simp)
  · have hpos : 0 < (indentRun body).length := by
      apply Nat.pos_of_ne_zero
      intro hzero
      rw [hzero, Nat.zero_mod] at hmod
      exact hmod rfl
    have hmultiple : ¬ (size.count : Int) ∣ ((indentRun body).length : Int) := by
      rw [Int.natCast_dvd_natCast]
      exact fun hdvd => hmod (Nat.mod_eq_zero_of_dvd hdvd)
    exact
      { line_eq := rfl
        start_pos := Int.le_refl 1
        stop_le := by simp only; omega
        unmarked := by simp
        span := by simp only; omega
        point := by simp
        measured := by
          constructor
          · simp
          · rintro n ⟨⟩
            exact ⟨by simp, size, hsize, hmultiple⟩ }

theorem fits_of_mem_unreadableFindings (h : f ∈ unreadableFindings line body) :
    f.Fits s line body := by
  rcases exists_of_mem_unreadableFindings h with ⟨before, t, after, rfl, -, rfl⟩
  have hle : before.length ≤ (before ++ t :: after).length := by simp
  exact fits_of_span (by omega) (by omega) (by omega) (by simp)

theorem fits_of_mem_trailingFindings (h : f ∈ trailingFindings s line body) :
    f.Fits s line body := by
  have hle := trailingLength_le body
  rcases eq_of_mem_trailingFindings h with ⟨hpos, rfl⟩
  exact fits_of_span (by omega) (by omega) (by omega) (by simp)

theorem fits_of_mem_endingFindings {ending : EndOfLine} {next : Option Token}
    (h : f ∈ endingFindings s line body ending next) : f.Fits s line body := by
  rw [eq_of_mem_endingFindings h]
  exact fits_of_span (by omega) (by omega) (Int.le_refl _) (by simp)

theorem fits_of_mem_finalFindings (h : f ∈ finalFindings s line body) :
    f.Fits s line body := by
  rw [eq_of_mem_finalFindings h]
  exact
    { line_eq := rfl
      start_pos := by simp only; omega
      stop_le := by simp only; omega
      unmarked := by simp
      span := by simp
      point := fun _ => rfl
      measured := measured_of_none rfl (by simp) }

theorem fits_of_mem_lineFindings {l : Line} {next : Option Token}
    (h : f ∈ lineFindings s line l next) : f.Fits s line l.body := by
  simp only [lineFindings, List.mem_append] at h
  rcases h with ((hindent | hunreadable) | htrailing) | hending
  · exact fits_of_mem_indentFindings hindent
  · exact fits_of_mem_unreadableFindings hunreadable
  · exact fits_of_mem_trailingFindings htrailing
  · exact fits_of_mem_endingFindings hending

theorem fits_of_mem_rest {rest : List Token}
    (h : f ∈ openFindings s line rest ++ finalFindings s line rest) :
    f.Fits s line rest := by
  simp only [openFindings, List.mem_append] at h
  rcases h with (hindent | hunreadable) | hfinal
  · exact fits_of_mem_indentFindings hindent
  · exact fits_of_mem_unreadableFindings hunreadable
  · exact fits_of_mem_finalFindings hfinal

/-!
## All lines
-/

/-- Each finding is about a line that is there and fits its body. -/
theorem exists_fits_of_mem_findingsFrom {ls : List Line} {rest : List Token}
    (h : f ∈ findingsFrom s line ls rest) :
    ∃ n body, (Layout.mk ls rest).bodies[n]? = some body ∧ f.Fits s (line + n) body := by
  induction ls generalizing line with
  | nil =>
      have hrest : rest ≠ [] := by
        rintro rfl
        have hfinal : finalFindings s line [] = [] := by simp [finalFindings]
        rw [findingsFrom, hfinal] at h
        cases h
      exact ⟨0, rest, by simp [bodies, hrest], fits_of_mem_rest h⟩
  | cons l ls ih =>
      rcases List.mem_append.mp h with hline | hmore
      · exact ⟨0, l.body, rfl, fits_of_mem_lineFindings hline⟩
      · rcases ih hmore with ⟨n, body, hbody, hfits⟩
        refine ⟨n + 1, body, hbody, ?_⟩
        have hnumber : line + 1 + n = line + (n + 1) := by omega
        rwa [hnumber] at hfits

theorem line_le_of_mem_findingsFrom {ls : List Line} {rest : List Token}
    (h : f ∈ findingsFrom s line ls rest) : line ≤ f.line := by
  rcases exists_fits_of_mem_findingsFrom h with ⟨n, body, -, hfits⟩
  have hline := hfits.line_eq
  omega

/-!
## A mark in front of the lines
-/

theorem exists_bodies_prepend {l : Layout} {n : Nat} {body : List Token}
    (h : l.bodies[n]? = some body) (before : List Token) :
    ∃ longer, (l.prepend before).bodies[n]? = some longer ∧
      body.length ≤ longer.length := by
  rcases l with ⟨_ | ⟨first, ls⟩, rest⟩
  · by_cases hrest : rest = []
    · simp [bodies, hrest] at h
    · cases n with
      | zero =>
          have hbody : body = rest := by simpa [bodies, hrest, eq_comm] using h
          subst hbody
          exact ⟨before ++ body, by simp [bodies, prepend, hrest], by simp⟩
      | succ n => simp [bodies, hrest] at h
  · cases n with
    | zero =>
        have hbody : body = first.body := by simpa [bodies, eq_comm] using h
        subst hbody
        exact ⟨before ++ first.body, rfl, by simp⟩
    | succ n => exact ⟨body, h, Nat.le_refl _⟩

end Layout

namespace Finding

theorem within_of_fits {s : Style} {l : Layout} {n : Nat} {body : List Token} {f : Finding}
    (hbody : l.bodies[n]? = some body) (h : f.Fits s (1 + n) body) : f.Within l := by
  refine ⟨n, body, hbody, ?_, h.start_pos, h.stop_le⟩
  rw [h.line_eq, Nat.add_comm]

theorem within_prepend {l : Layout} {f : Finding} (h : f.Within l) (before : List Token) :
    f.Within (l.prepend before) := by
  rcases h with ⟨n, body, hbody, hline, hstart, hstop⟩
  rcases exists_bodies_prepend hbody before with ⟨longer, hlonger, hle⟩
  exact ⟨n, longer, hlonger, hline, hstart, by omega⟩

end Finding

/-!
## Files
-/

theorem Style.exists_fits_of_mem_check {s : Style} {bytes : List UInt8} {f : Finding}
    (h : f ∈ s.check bytes) (hunmarked : f.reason ≠ .bomNotFound) :
    ∃ n body, (cut (s.countedTokens bytes)).bodies[n]? = some body ∧
      f.Fits s (1 + n) body := by
  rw [check_eq_findings] at h
  rcases List.mem_append.mp h with hpre | hlines
  · rw [(preamble_of_mem hpre).2.2] at hunmarked
    exact absurd rfl hunmarked
  · exact exists_fits_of_mem_findingsFrom hlines

end FileStyle
