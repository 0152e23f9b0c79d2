import FileStyle.Proofs.LineCheck
import Mathlib.Data.List.Induction

/-!
# Scripts for a cursor

A script feeds tokens to a cursor and asks it, between them and as often as it likes, for
the findings at the end of the input. Where the cursor stands after a script is told by the
lines of the tokens alone. A terminator that the next token may complete makes a difference:
behind it the column still belongs to the line that has ended, and the phase already to the
next one. Main statement: this holds after every script, and a script without its questions
leads to the same cursor and lacks only findings about the end of the input.
-/

namespace FileStyle

namespace Cursor

open Layout Token

/-! ## Scripts -/

inductive Action where
  | feed (t : Token)
  | finish
  deriving DecidableEq, Repr

def Action.token? : Action → Option Token
  | feed t => some t
  | finish => none

/-- The cursor after one action, and what the action brought to light. The question for the
findings at the end leaves the cursor where it is. -/
def act (s : Style) (c : Cursor) : Action → Cursor × List Finding
  | .feed t => c.feed s t
  | .finish => (c, c.finish s)

def run (s : Style) (c : Cursor) : List Action → Cursor × List Finding
  | [] => (c, [])
  | a :: script =>
      (((c.act s a).1.run s script).1, (c.act s a).2 ++ ((c.act s a).1.run s script).2)

def fedTokens (script : List Action) : List Token :=
  script.filterMap Action.token?

theorem run_feed (s : Style) (c : Cursor) (t : Token) (script : List Action) :
    c.run s (.feed t :: script) =
      (((c.feed s t).1.run s script).1, (c.feed s t).2 ++ ((c.feed s t).1.run s script).2) :=
  rfl

theorem run_finish (s : Style) (c : Cursor) (script : List Action) :
    c.run s (.finish :: script) = ((c.run s script).1, c.finish s ++ (c.run s script).2) :=
  rfl

theorem run_fst (s : Style) (c : Cursor) (script : List Action) :
    (c.run s script).1 = (c.feedAll s (fedTokens script)).1 := by
  induction script generalizing c with
  | nil => rfl
  | cons a script ih =>
      cases a with
      | feed t =>
          have htokens : fedTokens (.feed t :: script) = t :: fedTokens script := rfl
          rw [run_feed, htokens, feedAll_cons, ih]
      | finish => exact ih c

/-! ## Findings about the end of the input -/

section Reasons

variable {s : Style} {c : Cursor} {f : Finding}

theorem reason_of_mem_finish (h : f ∈ c.finish s) : f.reason = .noFinalNewline := by
  unfold finish at h
  split at h
  · rw [List.mem_singleton.mp h]
  · cases h

theorem reason_of_mem_checkTerminator {ending : EndOfLine}
    (h : f ∈ checkTerminator s c ending) : f.reason = .endOfLineMismatch := by
  unfold checkTerminator at h
  split at h
  · rw [List.mem_singleton.mp h]
    rfl
  · cases h

theorem reason_of_mem_settle (h : f ∈ (c.settle s).2) : f.reason = .endOfLineMismatch := by
  unfold settle at h
  split at h
  · cases h
  · exact reason_of_mem_checkTerminator h

theorem reason_of_mem_onSecondNewline {first second : Newline}
    (h : f ∈ (c.onSecondNewline s first second).2) : f.reason = .endOfLineMismatch := by
  unfold onSecondNewline at h
  split at h
  · exact reason_of_mem_checkTerminator h
  · split at h
    · rw [List.mem_singleton.mp h]
      rfl
    · cases h
  · exact reason_of_mem_checkTerminator h

theorem reason_of_mem_checkLineEnd (h : f ∈ checkLineEnd s c) :
    f.reason = .indentStyle ∨ f.reason = .trailingWhitespace := by
  have hblanks : ∀ length : Nat,
      f ∈ (if length ≠ 0 ∧ s.trimTrailingWhitespace = some true then
        [⟨c.line, (c.col : Int) - length, c.col, .trailingWhitespace, none⟩]
      else []) → f.reason = .trailingWhitespace := by
    intro length hf
    split at hf
    · rw [List.mem_singleton.mp hf]
    · cases hf
  unfold checkLineEnd at h
  split at h
  · cases h
  · exact .inr (hblanks _ h)
  · rcases List.mem_append.mp h with hstyle | hrest
    · split at hstyle
      · rw [List.mem_singleton.mp hstyle]
        exact .inl rfl
      · cases hstyle
    · exact .inr (hblanks _ hrest)

theorem reason_of_mem_checkIndent {length : Nat} {wrong : Bool}
    (h : f ∈ checkIndent s c length wrong) :
    f.reason = .indentStyle ∨ f.reason = .indentSizeMismatch := by
  unfold checkIndent at h
  split at h
  · rw [List.mem_singleton.mp h]
    exact .inl rfl
  · split at h
    · rw [List.mem_singleton.mp h]
      exact .inr rfl
    · cases h

theorem reason_of_mem_onIndent {kind : Indent} (h : f ∈ (c.onIndent s kind).2) :
    f.reason = .endOfLineMismatch := by
  unfold onIndent at h
  split at h
  · cases h
  · cases h
  · next length wrong _ =>
      by_cases hzero : length = 0
      · simp only [hzero, if_true] at h
        exact reason_of_mem_settle h
      · simp only [hzero, if_false] at h
        cases h

theorem reason_of_mem_onNewline {kind : Newline} (h : f ∈ (c.onNewline s kind).2) :
    f.reason = .indentStyle ∨ f.reason = .trailingWhitespace ∨
      f.reason = .endOfLineMismatch := by
  have hlineEnd : f ∈ checkLineEnd s c →
      f.reason = .indentStyle ∨ f.reason = .trailingWhitespace ∨
        f.reason = .endOfLineMismatch := by
    intro hf
    rcases reason_of_mem_checkLineEnd hf with hstyle | htrailing
    · exact .inl hstyle
    · exact .inr (.inl htrailing)
  cases hpending : c.pending with
  | none =>
      simp only [onNewline, hpending] at h
      exact hlineEnd h
  | some first =>
      simp only [onNewline, hpending] at h
      rcases List.mem_append.mp h with hline | hending
      · exact hlineEnd hline
      · exact .inr (.inr (reason_of_mem_onSecondNewline hending))

theorem reason_of_mem_onContent {isValid : Bool} (h : f ∈ (c.onContent s isValid).2) :
    f.reason = .endOfLineMismatch ∨ f.reason = .indentStyle ∨
      f.reason = .indentSizeMismatch ∨ f.reason = .invalidCharacter := by
  unfold onContent at h
  rcases List.mem_append.mp h with hindent | hcharacter
  · split at hindent
    · rcases List.mem_append.mp hindent with hending | hlength
      · exact .inl (reason_of_mem_settle hending)
      · rcases reason_of_mem_checkIndent hlength with hstyle | hsize
        · exact .inr (.inl hstyle)
        · exact .inr (.inr (.inl hsize))
    · cases hindent
  · split at hcharacter
    · cases hcharacter
    · rw [List.mem_singleton.mp hcharacter]
      exact .inr (.inr (.inr rfl))

theorem reason_ne_of_mem_feed {t : Token} (h : f ∈ (c.feed s t).2) :
    f.reason ≠ .noFinalNewline := by
  have hcontent : ∀ {isValid}, f ∈ (c.onContent s isValid).2 → f.reason ≠ .noFinalNewline := by
    intro isValid hf heq
    have hreason := reason_of_mem_onContent hf
    simp [heq] at hreason
  cases t with
  | indent kind =>
      intro heq
      have hreason : f.reason = .endOfLineMismatch := reason_of_mem_onIndent h
      simp [heq] at hreason
  | newline kind =>
      intro heq
      have hreason := reason_of_mem_onNewline h
      simp [heq] at hreason
  | valid bytes => exact hcontent h
  | invalid bytes => exact hcontent h
  | bom => exact hcontent h

end Reasons

theorem run_without_finish (s : Style) (c : Cursor) (script : List Action) :
    c.run s (script.filter (· ≠ .finish)) =
      ((c.run s script).1, (c.run s script).2.filter (·.reason ≠ .noFinalNewline)) := by
  induction script generalizing c with
  | nil => rfl
  | cons a script ih =>
      cases a with
      | feed t =>
          have hkept : (c.feed s t).2.filter (·.reason ≠ .noFinalNewline) =
              (c.feed s t).2 := by
            apply List.filter_eq_self.mpr
            intro f hf
            simpa using reason_ne_of_mem_feed hf
          rw [List.filter_cons_of_pos (by simp), run_feed, run_feed, ih, List.filter_append,
            hkept]
      | finish =>
          have hdropped : (c.finish s).filter (·.reason ≠ .noFinalNewline) = [] := by
            apply List.filter_eq_nil_iff.mpr
            intro f hf
            simp [reason_of_mem_finish hf]
          rw [List.filter_cons_of_neg (by simp), ih, run_finish, List.filter_append, hdropped]
          rfl

/-! ## The last terminator -/

/-- The last token is a terminator that the next one may complete: a carriage return, or a
line feed that no carriage return precedes. -/
def EndsBare (ts : List Token) (kind : Newline) : Prop :=
  ∃ before, ts = before ++ [.newline kind] ∧
    (kind = .lf → before.getLast? ≠ some (.newline .cr))

theorem EndsBare.getLast? {ts : List Token} {kind : Newline} (h : EndsBare ts kind) :
    ts.getLast? = some (.newline kind) := by
  rcases h with ⟨before, hts, -⟩
  rw [hts, List.getLast?_concat]

theorem endsBare_append_iff {ts : List Token} {t : Token} {kind : Newline} :
    EndsBare (ts ++ [t]) kind ↔
      t = .newline kind ∧ (kind = .lf → ts.getLast? ≠ some (.newline .cr)) := by
  constructor
  · intro h
    rcases h with ⟨before, heq, hbefore⟩
    rcases List.append_inj' heq rfl with ⟨hfront, hlast⟩
    rw [hfront]
    exact ⟨List.singleton_inj.mp hlast, hbefore⟩
  · intro h
    exact ⟨ts, by rw [h.left], h.right⟩

/-! ## The cursor behind some tokens -/

inductive Follows (s : Style) : List Token → Cursor → Prop where
  | inLine {ts rest : List Token} {ls : List Layout.Line} (before : Option Token)
      (cuts : Cuts ts ⟨ls, rest⟩) (settled : ∀ kind, ¬ EndsBare ts kind) :
      Follows s ts (inLine s (ls.length + 1) before rest)
  | afterBare {ts body : List Token} {ls : List Layout.Line} {kind : Newline}
      (cuts : Cuts ts ⟨ls ++ [⟨body, kind.convention⟩], []⟩) (bare : EndsBare ts kind) :
      Follows s ts (afterBare (ls.length + 1) body kind)

theorem follows_feed_inLine (s : Style) {ts rest : List Token} {ls : List Layout.Line}
    (before : Option Token) (cuts : Cuts ts ⟨ls, rest⟩) {t : Token}
    (hpair : t = .newline .lf → ts.getLast? ≠ some (.newline .cr)) :
    Follows s (ts ++ [t]) ((Cursor.inLine s (ls.length + 1) before rest).feed s t).1 := by
  cases ht : t.isNewline with
  | false =>
      rw [(feed_inLine s (ls.length + 1) before rest ht).left]
      refine .inLine before (cuts_append_content cuts ht) ?_
      intro kind hbare
      rw [(endsBare_append_iff.mp hbare).left] at ht
      cases ht
  | true =>
      rcases eq_newline_of_isNewline ht with ⟨kind, rfl⟩
      have whole : kind = .lf → ts.getLast? ≠ some (.newline .cr) := by
        intro hkind
        exact hpair (congrArg Token.newline hkind)
      rw [(feed_inLine_newline s (ls.length + 1) before rest kind).left]
      exact .afterBare (cuts_append_newline cuts whole) (endsBare_append_iff.mpr ⟨rfl, whole⟩)

/-- One more token keeps the cursor where the tokens tell. -/
theorem Follows.feed {s : Style} {ts : List Token} {c : Cursor} (h : Follows s ts c)
    (t : Token) : Follows s (ts ++ [t]) (c.feed s t).1 := by
  cases h with
  | inLine before cuts settled =>
      apply follows_feed_inLine s before cuts
      intro _ hlast
      rcases List.getLast?_eq_some_iff.mp hlast with ⟨front, rfl⟩
      exact settled .cr (endsBare_append_iff.mpr ⟨rfl, by simp⟩)
  | @afterBare body ls kind cuts bare =>
      have hcount : ∀ line : Layout.Line, ls.length + 1 + 1 = (ls ++ [line]).length + 1 := by
        simp
      by_cases hpair : kind = .cr ∧ t = .newline .lf
      · rcases hpair with ⟨rfl, rfl⟩
        rw [feed_afterBare_crlf s (ls.length + 1) body none, hcount ⟨body, .crlf⟩]
        refine .inLine _ (cuts_append_of_cr cuts) ?_
        intro kind hbare
        rcases endsBare_append_iff.mp hbare with ⟨hkind, hlast⟩
        exact hlast (by cases hkind; rfl) bare.getLast?
      · have hother : kind = .cr → t ≠ .newline .lf := fun hkind ht => hpair ⟨hkind, ht⟩
        rw [feed_afterBare s (ls.length + 1) body hother, hcount ⟨body, kind.convention⟩]
        apply follows_feed_inLine s _ cuts
        intro ht hlast
        rw [bare.getLast?] at hlast
        exact hpair ⟨by cases hlast; rfl, ht⟩

theorem follows_feedAll (s : Style) (ts : List Token) :
    Follows s ts (start.feedAll s ts).1 := by
  induction ts using List.reverseRecOn with
  | nil =>
      have hnone : ∀ kind, ¬ EndsBare [] kind := by
        intro kind hbare
        simpa using hbare.getLast?
      exact .inLine none (.last unbroken_nil) hnone
  | append_singleton ts t ih =>
      rw [feedAll_append]
      exact ih.feed t

theorem last_feedAll (s : Style) (ts : List Token) :
    (start.feedAll s ts).1.last = ts.getLast? := by
  induction ts using List.reverseRecOn with
  | nil => rfl
  | append_singleton ts t ih =>
      rw [feedAll_append, List.getLast?_concat]
      rfl

/-! ## What the place of a cursor tells -/

structure PhaseTells (s : Style) (p : Phase) (body : List Token) : Prop where
  blank : isBlank body = true → p = .indent body.length (body.any (isWrongIndent s))
  content : ∀ t, body.getLast? = some t → t.isIndent = false → p = .content
  trailing : ∀ t, body.getLast? = some t → t.isIndent = true → isBlank body = false →
    p = .trailing (trailingLength body) ∧ trailingLength body < body.length

/-- The cursor is behind a terminator that the next token may complete. It still counts the
columns of the line that has ended, and its phase is that of the next line. -/
structure BehindTerminator (ts : List Token) (kind : Newline) (c : Cursor) : Prop where
  pending : c.pending = some kind
  phase : c.phase = .indent 0 false
  place : ∃ ls body, Cuts ts ⟨ls ++ [⟨body, kind.convention⟩], []⟩ ∧
    c.line = 1 + ls.length ∧ c.col = 1 + body.length

structure InOpenLine (s : Style) (ts : List Token) (c : Cursor) : Prop where
  pending : c.pending = none
  place : ∃ ls rest, Cuts ts ⟨ls, rest⟩ ∧
    c.line = 1 + ls.length ∧ c.col = 1 + rest.length ∧ PhaseTells s c.phase rest

structure ToldBy (s : Style) (ts : List Token) (c : Cursor) : Prop where
  behind : ∀ kind, EndsBare ts kind → BehindTerminator ts kind c
  inside : (∀ kind, ¬ EndsBare ts kind) → InOpenLine s ts c
  last : c.last = ts.getLast?

theorem phaseTells_ofBody (s : Style) (body : List Token) :
    PhaseTells s (.ofBody s body) body where
  blank := by
    intro hblank
    rw [Phase.ofBody, if_pos hblank]
  content := by
    intro t hlast ht
    rcases List.getLast?_eq_some_iff.mp hlast with ⟨front, rfl⟩
    have hblank : isBlank (front ++ [t]) = false := by simp [isBlank, ht]
    rw [Phase.ofBody, hblank, trailingLength_append_of_not_isIndent front ht]
    rfl
  trailing := by
    intro t hlast ht hblank
    rcases List.getLast?_eq_some_iff.mp hlast with ⟨front, rfl⟩
    rw [Phase.ofBody, hblank, if_neg Bool.false_ne_true,
      if_neg ((trailingLength_ne_zero_iff front t).mpr ht)]
    exact ⟨rfl, trailingLength_lt_of_not_isBlank hblank⟩

theorem EndsBare.unique {ts : List Token} {kind other : Newline} (h : EndsBare ts kind)
    (hother : EndsBare ts other) : kind = other := by
  have hlast := hother.getLast?
  rw [h.getLast?] at hlast
  cases hlast
  rfl

theorem Follows.toldBy {s : Style} {ts : List Token} {c : Cursor} (h : Follows s ts c)
    (hlast : c.last = ts.getLast?) : ToldBy s ts c := by
  cases h with
  | @inLine rest ls before cuts settled =>
      have hplace : InOpenLine s ts (Cursor.inLine s (ls.length + 1) before rest) :=
        { pending := rfl
          place := ⟨ls, rest, cuts, Nat.add_comm _ _, Nat.add_comm _ _,
            phaseTells_ofBody s rest⟩ }
      exact
        { behind := fun kind hbare => absurd hbare (settled kind)
          inside := fun _ => hplace
          last := hlast }
  | @afterBare body ls kind cuts bare =>
      have hplace : BehindTerminator ts kind (Cursor.afterBare (ls.length + 1) body kind) :=
        { pending := rfl
          phase := rfl
          place := ⟨ls, body, cuts, Nat.add_comm _ _, Nat.add_comm _ _⟩ }
      exact
        { behind := fun other hother => bare.unique hother ▸ hplace
          inside := fun hsettled => absurd bare (hsettled kind)
          last := hlast }

/-- After every script, also one that is cut short, the tokens that it has fed tell where the
cursor is. The questions between them change no cursor, and without them only findings about
the end of the input are missing. -/
theorem run_start_told (s : Style) (script : List Action) :
    ToldBy s (fedTokens script) (start.run s script).1 ∧
      start.run s (script.filter (· ≠ .finish)) =
        ((start.run s script).1,
          (start.run s script).2.filter (·.reason ≠ .noFinalNewline)) := by
  constructor
  · rw [run_fst]
    exact (follows_feedAll s _).toldBy (last_feedAll s _)
  · exact run_without_finish s start script

/-- The second of two carriage returns ends an empty line, and the question between them is
not about a missing terminator. -/
theorem run_start_told_of_two_returns :
    let s : Style := { indentStyle := some .space, insertFinalNewline := some true }
    let script : List Action := [.feed (.indent .tab), .finish, .feed (.newline .cr), .finish,
      .feed (.newline .cr)]
    (start.run s script).2 = [⟨1, 2, 2, .noFinalNewline, none⟩, ⟨1, 1, 2, .indentStyle, none⟩] ∧
      EndsBare (fedTokens script) .cr ∧
      BehindTerminator (fedTokens script) .cr (start.run s script).1 ∧
      (start.run s (script.filter (· ≠ .finish))).2 = [⟨1, 1, 2, .indentStyle, none⟩] := by
  intro s script
  have hfound : (start.run s script).2 =
      [⟨1, 2, 2, .noFinalNewline, none⟩, ⟨1, 1, 2, .indentStyle, none⟩] := by
    decide
  have hbare : EndsBare (fedTokens script) .cr :=
    ⟨[.indent .tab, .newline .cr], rfl, by simp⟩
  rcases run_start_told s script with ⟨htold, hwithout⟩
  refine ⟨hfound, hbare, htold.behind .cr hbare, ?_⟩
  rw [hwithout, hfound]
  decide

end Cursor
end FileStyle
