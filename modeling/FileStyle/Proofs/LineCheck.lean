import FileStyle.Check
import FileStyle.Proofs.LineRules

/-!
# Checking line by line

The cursor meets the tokens of a line one after the other and settles a terminator one
token late. This module relates it to the lines: what the cursor is after some tokens of
a line is told by these tokens alone, each token adds the findings that it adds to the
open body, and a pending terminator is judged by the token after it. Main statement: a
check finds in a sequence of tokens what its lines say.
-/

namespace FileStyle

open Layout Token

def Phase.ofBody (s : Style) (body : List Token) : Phase :=
  if isBlank body then
    .indent body.length (body.any (isWrongIndent s))
  else if trailingLength body = 0 then
    .content
  else
    .trailing (trailingLength body)

namespace Cursor

/-- The cursor after some tokens of the body of a line. The token before the line is
the last one seen as long as the body is empty. -/
def inLine (s : Style) (line : Nat) (before : Option Token) (body : List Token) :
    Cursor where
  line := line
  col := body.length + 1
  phase := .ofBody s body
  pending := none
  last := body.getLast?.or before

def afterBare (line : Nat) (body : List Token) (kind : Newline) : Cursor where
  line := line
  col := body.length + 1
  phase := .indent 0 false
  pending := some kind
  last := some (.newline kind)

theorem start_eq_inLine (s : Style) : start = inLine s 1 none [] := rfl

def report (s : Style) (c : Cursor) (ts : List Token) : List Finding :=
  (c.feedAll s ts).2 ++ (c.feedAll s ts).1.finish s

theorem checkTokens_eq_report (s : Style) (ts : List Token) :
    s.checkTokens ts = report s start ts := rfl

theorem report_cons (s : Style) (c : Cursor) (t : Token) (ts : List Token) :
    report s c (t :: ts) = (c.feed s t).2 ++ report s (c.feed s t).1 ts := by
  simp [report, feedAll_cons, List.append_assoc]

theorem isWrong_eq (s : Style) (kind : Indent) :
    isWrong s kind = isWrongIndent s (.indent kind) := by
  rcases hstyle : s.indentStyle with _ | style
  · cases kind <;> simp [isWrong, isWrongIndent, hstyle]
  · cases kind <;> cases style <;> simp [isWrong, isWrongIndent, hstyle]

/-! ## One token of a body -/

theorem feed_inLine_indent (s : Style) (line : Nat) (before : Option Token)
    (body : List Token) (kind : Indent) :
    (inLine s line before body).feed s (.indent kind) =
      (inLine s line before (body ++ [.indent kind]), []) := by
  have hblank := isBlank_append body [.indent kind]
  have htrail := trailingLength_append_indent body kind
  have hkind : isBlank [.indent kind] = true := rfl
  rw [hkind, Bool.and_true] at hblank
  cases hbody : isBlank body with
  | true =>
      simp [feed, onIndent, inLine, Phase.ofBody, hblank, hbody, settle, isWrong_eq]
  | false =>
      by_cases hzero : trailingLength body = 0
      · simp [feed, onIndent, inLine, Phase.ofBody, hblank, hbody, htrail, hzero]
      · simp [feed, onIndent, inLine, Phase.ofBody, hblank, hbody, htrail, hzero]

theorem onContent_inLine (s : Style) (line : Nat) (before : Option Token)
    (body : List Token) (isValid : Bool) :
    (inLine s line before body).onContent s isValid =
      ({ inLine s line before body with phase := .content, col := body.length + 2 },
        (if isBlank body then
            checkIndent s (inLine s line before body) body.length
              (body.any (isWrongIndent s))
          else
            []) ++
          if isValid then
            []
          else
            [⟨line, body.length + 1, body.length + 2, .invalidCharacter, none⟩]) := by
  have hstop : ((body.length : Int) + 1 + 1) = body.length + 2 := by omega
  cases hbody : isBlank body with
  | true => simp [onContent, inLine, Phase.ofBody, hbody, settle, hstop]
  | false =>
      by_cases hzero : trailingLength body = 0
      · simp [onContent, inLine, Phase.ofBody, hbody, hzero, hstop]
      · simp [onContent, inLine, Phase.ofBody, hbody, hzero, hstop]

theorem feed_eq_onContent (s : Style) (c : Cursor) {t : Token}
    (hnewline : t.isNewline = false) (hindent : t.isIndent = false) :
    c.feed s t =
      ({ (c.onContent s (!t.isUnreadable)).1 with last := some t },
        (c.onContent s (!t.isUnreadable)).2) := by
  cases t with
  | newline kind => simp [isNewline] at hnewline
  | indent kind => simp [isIndent] at hindent
  | bom => rfl
  | valid bytes => rfl
  | invalid bytes => rfl

theorem checkIndent_inLine (s : Style) (line : Nat) (before : Option Token)
    {body : List Token} (h : isBlank body = true) {t : Token}
    (ht : t.isIndent = false) :
    checkIndent s (inLine s line before body) body.length
        (body.any (isWrongIndent s)) =
      indentFindings s line (body ++ [t]) false := by
  have hblank : isBlank (body ++ [t]) = false := by simp [isBlank, ht]
  have hrun : indentRun (body ++ [t]) = body := by
    have hall : ∀ u ∈ body, isIndent u = true := by simpa [isBlank] using h
    simp [indentRun, List.takeWhile_append_of_pos hall, ht]
  have hstart : ((body.length : Int) + 1 - body.length) = 1 := by omega
  simp [checkIndent, indentFindings, hblank, hrun, inLine, hstart]

theorem openFindings_append_indent (s : Style) (line : Nat) (body : List Token)
    (kind : Indent) :
    openFindings s line (body ++ [.indent kind]) = openFindings s line body := by
  have hread : isUnreadable (.indent kind) = false := rfl
  cases hbody : isBlank body with
  | true =>
      have hblank : isBlank (body ++ [.indent kind]) = true := by
        rw [isBlank_append, hbody]
        rfl
      simp [openFindings, unreadableFindings_append, hread,
        indentFindings_of_isBlank s line hbody, indentFindings_of_isBlank s line hblank]
  | false =>
      simp [openFindings, unreadableFindings_append, hread,
        indentFindings_append_of_not_isBlank s line hbody]

theorem openFindings_append_content (s : Style) (line : Nat) (before : Option Token)
    (body : List Token) {t : Token} (ht : t.isIndent = false) :
    openFindings s line (body ++ [t]) =
      openFindings s line body ++
        ((inLine s line before body).onContent s (!t.isUnreadable)).2 := by
  rw [onContent_inLine]
  simp only [openFindings, unreadableFindings_append]
  cases hbody : isBlank body with
  | true =>
      rw [if_pos rfl, checkIndent_inLine s line before hbody ht,
        indentFindings_of_isBlank s line hbody, unreadableFindings_of_isBlank line hbody]
      cases t.isUnreadable <;> simp
  | false =>
      rw [indentFindings_append_of_not_isBlank s line hbody]
      cases t.isUnreadable <;> simp

/-- One more token of a body: the cursor is that of the longer body, and finds what the
open body gains. -/
theorem feed_inLine (s : Style) (line : Nat) (before : Option Token) (body : List Token)
    {t : Token} (ht : t.isNewline = false) :
    ((inLine s line before body).feed s t).1 = inLine s line before (body ++ [t]) ∧
      openFindings s line (body ++ [t]) =
        openFindings s line body ++ ((inLine s line before body).feed s t).2 := by
  cases hindent : t.isIndent with
  | true =>
      rcases eq_indent_of_isIndent hindent with ⟨kind, rfl⟩
      rw [feed_inLine_indent]
      constructor
      · rfl
      · rw [openFindings_append_indent, List.append_nil]
  | false =>
      rw [feed_eq_onContent s _ ht hindent]
      constructor
      · have hblank : isBlank (body ++ [t]) = false := by simp [isBlank, hindent]
        have htrail := trailingLength_append_of_not_isIndent body hindent
        rw [onContent_inLine]
        simp [inLine, Phase.ofBody, hblank, htrail]
      · exact openFindings_append_content s line before body hindent

theorem feedAll_inLine (s : Style) (line : Nat) (before : Option Token)
    {body : List Token} (free : Unbroken body) (more : List Token) :
    ((inLine s line before more).feedAll s body).1 =
        inLine s line before (more ++ body) ∧
      openFindings s line (more ++ body) =
        openFindings s line more ++ ((inLine s line before more).feedAll s body).2 := by
  induction body generalizing more with
  | nil => simp
  | cons t body ih =>
      rcases unbroken_cons.mp free with ⟨ht, hbody⟩
      rcases feed_inLine s line before more ht with ⟨hcursor, hfound⟩
      rcases ih hbody (more ++ [t]) with ⟨hrest, hmore⟩
      rw [feedAll_cons, hcursor]
      constructor
      · rw [hrest]
        simp
      · rw [hfound] at hmore
        simpa [List.append_assoc] using hmore

/-!
## Terminators
-/

theorem checkLineEnd_inLine_of_isBlank (s : Style) (line : Nat) (before : Option Token)
    {body : List Token} (h : isBlank body = true) :
    checkLineEnd s (inLine s line before body) =
      indentFindings s line body true ++ trailingFindings s line body := by
  have hstart : ((body.length : Int) + 1 - body.length) = 1 := by omega
  simp [checkLineEnd, inLine, Phase.ofBody, h, indentFindings, trailingFindings,
    indentRun_of_isBlank h, trailingLength_of_isBlank h, hstart, and_comm]

theorem checkLineEnd_inLine_of_not_isBlank (s : Style) (line : Nat)
    (before : Option Token) {body : List Token} (h : isBlank body = false) :
    checkLineEnd s (inLine s line before body) = trailingFindings s line body := by
  have hstart : ((body.length : Int) + 1 - trailingLength body) =
      body.length - trailingLength body + 1 := by omega
  by_cases hzero : trailingLength body = 0
  · simp [checkLineEnd, inLine, Phase.ofBody, h, trailingFindings, hzero]
  · simp [checkLineEnd, inLine, Phase.ofBody, h, trailingFindings, hzero, hstart]

theorem feed_inLine_newline (s : Style) (line : Nat) (before : Option Token)
    (body : List Token) (kind : Newline) :
    ((inLine s line before body).feed s (.newline kind)).1 = afterBare line body kind ∧
      openFindings s line body ++
          ((inLine s line before body).feed s (.newline kind)).2 =
        indentFindings s line body true ++ unreadableFindings line body ++
          trailingFindings s line body := by
  constructor
  · rfl
  · change openFindings s line body ++ checkLineEnd s (inLine s line before body) = _
    cases hbody : isBlank body with
    | true =>
        rw [checkLineEnd_inLine_of_isBlank s line before hbody]
        simp [openFindings, indentFindings_of_isBlank s line hbody,
          unreadableFindings_of_isBlank line hbody]
    | false =>
        rw [checkLineEnd_inLine_of_not_isBlank s line before hbody, openFindings,
          indentFindings_of_not_isBlank s line hbody false]

theorem feed_afterBare_crlf (s : Style) (line : Nat) (body : List Token)
    (next : Option Token) :
    (afterBare line body .cr).feed s (.newline .lf) =
      (inLine s (line + 1) (some (.newline .lf)) [],
        endingFindings s line body .crlf next) := by
  have hstop : ((body.length : Int) + 1 + 1) = body.length + 2 := by omega
  simp [feed, onNewline, onSecondNewline, afterBare, inLine, Phase.ofBody, isBlank,
    checkLineEnd, checkTerminator, terminatorFinding, nextLine, endingFindings,
    isWrongEnding, hstop]

theorem checkTerminator_afterBare (s : Style) (line : Nat) (body : List Token)
    {kind : Newline} {t : Token} (hmixed : kind = .lf → t ≠ .newline .cr) :
    checkTerminator s (afterBare line body kind) kind.convention =
      endingFindings s line body kind.convention (some t) := by
  have hstop : ((body.length : Int) + 1 + 1) = body.length + 2 := by omega
  cases kind with
  | cr =>
      change checkTerminator s _ .cr = endingFindings s line body .cr (some t)
      simp [checkTerminator, terminatorFinding, afterBare, endingFindings,
        isWrongEnding, hstop]
  | lf =>
      have ht : t ≠ .newline .cr := hmixed rfl
      change checkTerminator s _ .lf = endingFindings s line body .lf (some t)
      simp [checkTerminator, terminatorFinding, afterBare, endingFindings,
        isWrongEnding, hstop, ht]

theorem settle_afterBare (s : Style) (line : Nat) (body : List Token) {kind : Newline}
    {t : Token} (ht : t.isNewline = false) :
    (afterBare line body kind).settle s =
      (inLine s (line + 1) (some (.newline kind)) [],
        endingFindings s line body kind.convention (some t)) := by
  have hmixed : kind = .lf → t ≠ .newline .cr := by
    rintro - rfl
    simp [isNewline] at ht
  rw [← checkTerminator_afterBare s line body hmixed]
  rfl

theorem onSecondNewline_afterBare (s : Style) (line : Nat) (body : List Token)
    {first second : Newline} (hpair : first = .cr → second ≠ .lf) :
    (afterBare line body first).onSecondNewline s first second =
      ({ afterBare (line + 1) [] second with last := some (.newline first) },
        endingFindings s line body first.convention (some (.newline second))) := by
  have hstop : ((body.length : Int) + 1 + 1) = body.length + 2 := by omega
  cases first with
  | cr =>
      cases second with
      | lf => exact absurd rfl (hpair rfl)
      | cr =>
          rw [← checkTerminator_afterBare s line body (by simp)]
          rfl
  | lf =>
      cases second with
      | lf =>
          rw [← checkTerminator_afterBare s line body (by simp)]
          rfl
      | cr =>
          -- Whatever terminator is asked for, this one is none.
          cases hrule : s.endOfLine <;>
            simp [onSecondNewline, endingFindings, isWrongEnding, Newline.convention,
              terminatorFinding, afterBare, nextLine, hrule, hstop]

theorem feed_afterBare_newline (s : Style) (line : Nat) (body : List Token)
    {first second : Newline} (hpair : first = .cr → second ≠ .lf) :
    (afterBare line body first).feed s (.newline second) =
      (afterBare (line + 1) [] second,
        endingFindings s line body first.convention (some (.newline second))) := by
  have hsettled := onSecondNewline_afterBare s line body hpair
  have hfeed : (afterBare line body first).feed s (.newline second) =
      ({ ((afterBare line body first).onSecondNewline s first second).1 with
          last := some (.newline second) },
        ((afterBare line body first).onSecondNewline s first second).2) := rfl
  rw [hfeed, hsettled]
  rfl

theorem feed_afterBare_indent (s : Style) (line : Nat) (body : List Token)
    (kind : Newline) (style : Indent) :
    (afterBare line body kind).feed s (.indent style) =
      (inLine s (line + 1) (some (.newline kind)) [.indent style],
        endingFindings s line body kind.convention (some (.indent style))) := by
  have hindent : isNewline (.indent style) = false := rfl
  have hsettled : (afterBare line body kind).settle s = _ :=
    settle_afterBare s line body hindent
  have hphase : (afterBare line body kind).phase = .indent 0 false := rfl
  simp only [feed, onIndent, hphase, if_pos, hsettled]
  simp [inLine, Phase.ofBody, isBlank, isIndent, isWrong_eq]

theorem onContent_afterBare (s : Style) (line : Nat) (body : List Token)
    {kind : Newline} {t : Token} (ht : t.isNewline = false) (isValid : Bool) :
    (afterBare line body kind).onContent s isValid =
      (((inLine s (line + 1) (some (.newline kind)) []).onContent s isValid).1,
        endingFindings s line body kind.convention (some t) ++
          ((inLine s (line + 1) (some (.newline kind)) []).onContent s isValid).2) := by
  have hsettled : (afterBare line body kind).settle s = _ :=
    settle_afterBare s line body ht
  have hphase : (afterBare line body kind).phase = .indent 0 false := rfl
  simp only [onContent, hphase, hsettled]
  simp [inLine, Phase.ofBody, isBlank, settle, List.append_assoc]

/-- Any other token judges a pending terminator and then counts as the first of the
next line. -/
theorem feed_afterBare (s : Style) (line : Nat) (body : List Token) {kind : Newline}
    {t : Token} (hpair : kind = .cr → t ≠ .newline .lf) :
    (afterBare line body kind).feed s t =
      (((inLine s (line + 1) (some (.newline kind)) []).feed s t).1,
        endingFindings s line body kind.convention (some t) ++
          ((inLine s (line + 1) (some (.newline kind)) []).feed s t).2) := by
  cases hindent : t.isIndent with
  | true =>
      rcases eq_indent_of_isIndent hindent with ⟨style, rfl⟩
      rw [feed_afterBare_indent, feed_inLine_indent]
      simp
  | false =>
      cases hnewline : t.isNewline with
      | true =>
          rcases eq_newline_of_isNewline hnewline with ⟨second, rfl⟩
          have hsecond : kind = .cr → second ≠ .lf := by
            rintro hkind rfl
            exact hpair hkind rfl
          have hnone : ((inLine s (line + 1) (some (.newline kind)) []).feed s
              (.newline second)).2 = [] := rfl
          rw [feed_afterBare_newline s line body hsecond, hnone, List.append_nil]
          rfl
      | false =>
          rw [feed_eq_onContent s _ hnewline hindent,
            feed_eq_onContent s _ hnewline hindent,
            onContent_afterBare s line body hnewline]

/-!
## Whole files
-/

theorem feedAll_append (s : Style) (c : Cursor) (xs ys : List Token) :
    c.feedAll s (xs ++ ys) =
      (((c.feedAll s xs).1.feedAll s ys).1,
        (c.feedAll s xs).2 ++ ((c.feedAll s xs).1.feedAll s ys).2) := by
  induction xs generalizing c with
  | nil => simp
  | cons t xs ih =>
      rw [List.cons_append, feedAll_cons, feedAll_cons, ih]
      simp [List.append_assoc]

theorem report_inLine_append (s : Style) (line : Nat) (before : Option Token)
    {body : List Token} (free : Unbroken body) (ts : List Token) :
    report s (inLine s line before []) (body ++ ts) =
      openFindings s line body ++ report s (inLine s line before body) ts := by
  rcases feedAll_inLine s line before free [] with ⟨hcursor, hfound⟩
  have hempty : openFindings s line [] = [] := rfl
  rw [hempty, List.nil_append, List.nil_append] at hfound
  rw [List.nil_append] at hcursor
  rw [report, feedAll_append, hcursor, ← hfound, report, List.append_assoc]

theorem report_inLine_nil (s : Style) (line : Nat) {before : Option Token}
    (hbefore : before.all isNewline = true) {rest : List Token} (free : Unbroken rest) :
    report s (inLine s line before rest) [] = finalFindings s line rest := by
  rw [report, feedAll_nil, List.nil_append]
  cases hlast : rest.getLast? with
  | none =>
      have hrest : rest = [] := List.getLast?_eq_none_iff.mp hlast
      subst hrest
      cases before with
      | none => simp [finish, inLine, finalFindings]
      | some t =>
          have ht : t.isNewline = true := by simpa using hbefore
          simp [finish, inLine, finalFindings, ht]
  | some t =>
      have ht : t.isNewline = false := free t (List.mem_of_getLast? hlast)
      have hrest : rest ≠ [] := by
        rintro rfl
        simp at hlast
      simp [finish, inLine, finalFindings, hlast, ht, hrest]

theorem report_afterBare (s : Style) (line : Nat) (body : List Token) {kind : Newline}
    {ts : List Token} (whole : kind = .cr → ts.head? ≠ some (.newline .lf)) :
    report s (afterBare line body kind) ts =
      endingFindings s line body kind.convention ts.head? ++
        report s (inLine s (line + 1) (some (.newline kind)) []) ts := by
  cases ts with
  | nil =>
      rw [report_inLine_nil s (line + 1) rfl unbroken_nil]
      cases kind <;>
        simp [report, finish, afterBare, isNewline, endingFindings, isWrongEnding,
          Newline.convention, finalFindings]
  | cons t ts =>
      have hpair : kind = .cr → t ≠ .newline .lf := by
        rintro hkind rfl
        exact whole hkind rfl
      rw [report_cons, report_cons, feed_afterBare s line body hpair]
      simp [List.append_assoc]

theorem report_inLine_ending (s : Style) (line : Nat) (before : Option Token)
    (body : List Token) {ending : EndOfLine} {ts : List Token}
    (whole : ending = .cr → ts.head? ≠ some (.newline .lf)) :
    ∃ kind, openFindings s line body ++
        report s (inLine s line before body) (ending.tokens ++ ts) =
      lineFindings s line ⟨body, ending⟩ ts.head? ++
        report s (inLine s (line + 1) (some (.newline kind)) []) ts := by
  have hbare : ∀ kind : Newline, (kind = .cr → ts.head? ≠ some (.newline .lf)) →
      openFindings s line body ++
          report s (inLine s line before body) (.newline kind :: ts) =
        lineFindings s line ⟨body, kind.convention⟩ ts.head? ++
          report s (inLine s (line + 1) (some (.newline kind)) []) ts := by
    intro kind hkind
    rcases feed_inLine_newline s line before body kind with ⟨hcursor, hfound⟩
    rw [report_cons, hcursor, ← List.append_assoc, hfound,
      report_afterBare s line body hkind, lineFindings]
    simp only [List.append_assoc]
  cases ending with
  | lf => exact ⟨.lf, hbare .lf (by simp)⟩
  | cr => exact ⟨.cr, hbare .cr (fun _ => whole rfl)⟩
  | crlf =>
      rcases feed_inLine_newline s line before body .cr with ⟨hcursor, hfound⟩
      refine ⟨.lf, ?_⟩
      change openFindings s line body ++
        report s (inLine s line before body) (.newline .cr :: .newline .lf :: ts) = _
      rw [report_cons, report_cons, hcursor, ← List.append_assoc, hfound,
        feed_afterBare_crlf s line body ts.head?, lineFindings]
      simp [List.append_assoc]

theorem report_eq_findingsFrom (s : Style) {ts : List Token} {l : Layout}
    (h : Cuts ts l) (line : Nat) {before : Option Token}
    (hbefore : before.all isNewline = true) :
    report s (inLine s line before []) ts = findingsFrom s line l.lines l.rest := by
  -- Only the last token before a line varies, and at the start of a line it is always a
  -- terminator, so an empty last line is not blamed for a missing one.
  induction h generalizing line before with
  | @last rest free =>
      have hbody := report_inLine_append s line before free []
      rw [List.append_nil] at hbody
      rw [hbody, report_inLine_nil s line hbefore free]
      rfl
  | @line body ts rest ending ls free whole more ih =>
      rcases report_inLine_ending s line before body whole with ⟨kind, hline⟩
      have hbefore : (some (Token.newline kind)).all isNewline = true := rfl
      have hnext := ih (line + 1) hbefore
      rw [report_inLine_append s line before free, hline, hnext, findingsFrom,
        tokens_eq_of_cuts more]

end Cursor

theorem Style.checkTokens_of_cuts (s : Style) {ts : List Token} {l : Layout}
    (h : Cuts ts l) : s.checkTokens ts = l.findings s := by
  rw [Cursor.checkTokens_eq_report, Cursor.start_eq_inLine s,
    Cursor.report_eq_findingsFrom s h 1 rfl]
  rfl

/-- The tokens of a file are cut into lines in exactly one way, and a check finds in
them what these lines say, one line after the other. -/
theorem Style.checkTokens_eq_findings (s : Style) (ts : List Token) :
    ∃ l : Layout, Cuts ts l ∧ (∀ other, Cuts ts other → other = l) ∧
      s.checkTokens ts = l.findings s := by
  refine ⟨cut ts, cuts_cut ts, ?_, ?_⟩
  · intro other h
    exact (cut_eq_of_cuts h).symm
  · rw [Cursor.checkTokens_eq_report, Cursor.start_eq_inLine s,
      Cursor.report_eq_findingsFrom s (cuts_cut ts) 1 rfl]
    rfl

end FileStyle
