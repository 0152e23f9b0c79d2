import FileStyle.Style

/-!
# The lines of a file

The tokens of a file fall into lines. A line is a body without terminators and the
terminator that ends it; what follows the last terminator is a line that was left open.
A carriage return before a line feed is never a terminator of its own. Main statement:
every sequence of tokens is cut into lines in exactly one way.
-/

namespace FileStyle

def EndOfLine.tokens : EndOfLine → List Token
  | .lf => [.newline .lf]
  | .crlf => [.newline .cr, .newline .lf]
  | .cr => [.newline .cr]

def Token.Unbroken (body : List Token) : Prop :=
  ∀ t ∈ body, t.isNewline = false

theorem Token.unbroken_cons {t : Token} {body : List Token} :
    Unbroken (t :: body) ↔ t.isNewline = false ∧ Unbroken body :=
  List.forall_mem_cons

theorem Token.unbroken_nil : Unbroken [] := by
  intro t ht
  cases ht

theorem Token.eq_newline_of_isNewline {t : Token} (h : t.isNewline = true) :
    ∃ kind, t = .newline kind := by
  cases t with
  | newline kind => exact ⟨kind, rfl⟩
  | bom => simp [isNewline] at h
  | indent kind => simp [isNewline] at h
  | valid bytes => simp [isNewline] at h
  | invalid bytes => simp [isNewline] at h

theorem Token.eq_indent_of_isIndent {t : Token} (h : t.isIndent = true) :
    ∃ kind, t = .indent kind := by
  cases t with
  | indent kind => exact ⟨kind, rfl⟩
  | bom => simp [isIndent] at h
  | newline kind => simp [isIndent] at h
  | valid bytes => simp [isIndent] at h
  | invalid bytes => simp [isIndent] at h

structure Layout.Line where
  body : List Token
  ending : EndOfLine
  deriving DecidableEq, Repr

structure Layout where
  lines : List Layout.Line
  rest : List Token
  deriving DecidableEq, Repr

namespace Layout

open Token

def Line.tokens (l : Line) : List Token :=
  l.body ++ l.ending.tokens

def tokens (l : Layout) : List Token :=
  l.lines.flatMap Line.tokens ++ l.rest

@[simp] theorem tokens_open (rest : List Token) :
    (Layout.mk [] rest).tokens = rest := rfl

@[simp] theorem tokens_line (l : Line) (ls : List Line) (rest : List Token) :
    (Layout.mk (l :: ls) rest).tokens =
      l.body ++ (l.ending.tokens ++ (Layout.mk ls rest).tokens) := by
  simp [tokens, Line.tokens, List.append_assoc]

inductive Cuts : List Token → Layout → Prop where
  | last {rest : List Token} (free : Unbroken rest) : Cuts rest ⟨[], rest⟩
  | line {body ts rest : List Token} {ending : EndOfLine} {ls : List Line}
      (free : Unbroken body)
      (whole : ending = .cr → ts.head? ≠ some (.newline .lf))
      (more : Cuts ts ⟨ls, rest⟩) :
      Cuts (body ++ (ending.tokens ++ ts)) ⟨⟨body, ending⟩ :: ls, rest⟩

theorem tokens_eq_of_cuts {ts : List Token} {l : Layout} (h : Cuts ts l) :
    l.tokens = ts := by
  induction h with
  | last free => rfl
  | line free whole more ih => rw [tokens_line, ih]

/-!
## Cutting
-/

def prepend (body : List Token) : Layout → Layout
  | ⟨[], rest⟩ => ⟨[], body ++ rest⟩
  | ⟨l :: ls, rest⟩ => ⟨⟨body ++ l.body, l.ending⟩ :: ls, rest⟩

def endLine (ending : EndOfLine) (l : Layout) : Layout :=
  ⟨⟨[], ending⟩ :: l.lines, l.rest⟩

def cut : List Token → Layout
  | [] => ⟨[], []⟩
  | .newline .cr :: .newline .lf :: ts => (cut ts).endLine .crlf
  | .newline kind :: ts => (cut ts).endLine kind.convention
  | t :: ts => (cut ts).prepend [t]

theorem prepend_append (xs ys : List Token) (l : Layout) :
    l.prepend (xs ++ ys) = (l.prepend ys).prepend xs := by
  rcases l with ⟨_ | ⟨l, ls⟩, rest⟩
  · simp [prepend]
  · simp [prepend]

theorem cut_cons_of_unbroken {t : Token} (ht : t.isNewline = false) (ts : List Token) :
    cut (t :: ts) = (cut ts).prepend [t] := by
  cases t with
  | newline kind => simp [isNewline] at ht
  | bom => rfl
  | indent kind => rfl
  | valid bytes => rfl
  | invalid bytes => rfl

theorem cut_append_of_unbroken {body : List Token} (free : Unbroken body)
    (ts : List Token) : cut (body ++ ts) = (cut ts).prepend body := by
  induction body with
  | nil => rcases hcut : cut ts with ⟨_ | ⟨l, ls⟩, rest⟩ <;> simp [prepend, hcut]
  | cons t body ih =>
      rcases unbroken_cons.mp free with ⟨ht, hbody⟩
      rw [List.cons_append, cut_cons_of_unbroken ht, ih hbody, ← prepend_append]
      rfl

theorem cut_ending_append {ending : EndOfLine} {ts : List Token}
    (whole : ending = .cr → ts.head? ≠ some (.newline .lf)) :
    cut (ending.tokens ++ ts) = (cut ts).endLine ending := by
  cases ending with
  | lf => rfl
  | crlf => rfl
  | cr =>
      have hnext : ∀ us, ts ≠ .newline .lf :: us := by
        intro us h
        exact whole rfl (by rw [h]; rfl)
      change cut (.newline .cr :: ts) = _
      rw [cut]
      · rfl
      · intro us h _
        exact hnext us h

theorem cut_eq_of_cuts {ts : List Token} {l : Layout} (h : Cuts ts l) : cut ts = l := by
  induction h with
  | @last rest free =>
      have hcut := cut_append_of_unbroken free []
      simpa [cut, prepend] using hcut
  | line free whole more ih =>
      rw [cut_append_of_unbroken free, cut_ending_append whole, ih]
      simp [endLine, prepend]

theorem cuts_endLine {ending : EndOfLine} {ts : List Token}
    (whole : ending = .cr → ts.head? ≠ some (.newline .lf)) (h : Cuts ts (cut ts)) :
    Cuts (ending.tokens ++ ts) ((cut ts).endLine ending) := by
  exact .line unbroken_nil whole h

theorem cuts_prepend {t : Token} (ht : t.isNewline = false) {ts : List Token}
    {l : Layout} (h : Cuts ts l) : Cuts (t :: ts) (l.prepend [t]) := by
  have hcons : ∀ {body : List Token}, Unbroken body → Unbroken (t :: body) := by
    intro body free
    exact unbroken_cons.mpr ⟨ht, free⟩
  cases h with
  | last free => exact .last (hcons free)
  | line free whole more => exact .line (hcons free) whole more

theorem cuts_cut (ts : List Token) : Cuts ts (cut ts) := by
  induction ts using cut.induct with
  | case1 => exact .last (by simp [Unbroken])
  | case2 ts ih =>
      have whole : EndOfLine.crlf = .cr → ts.head? ≠ some (.newline .lf) := by simp
      exact cuts_endLine whole ih
  | case3 kind ts hpair ih =>
      cases kind with
      | lf =>
          have whole : EndOfLine.lf = .cr → ts.head? ≠ some (.newline .lf) := by simp
          exact cuts_endLine whole ih
      | cr =>
          have whole : EndOfLine.cr = .cr → ts.head? ≠ some (.newline .lf) := by
            intro _ hhead
            rcases List.head?_eq_some_iff.mp hhead with ⟨us, hus⟩
            exact hpair us hus rfl
          rw [← List.singleton_append, ← EndOfLine.tokens, cut_ending_append whole]
          exact cuts_endLine whole ih
  | case4 t ts hpair hkind ih =>
      have ht : t.isNewline = false := by
        cases hnewline : t.isNewline with
        | false => rfl
        | true =>
            rcases eq_newline_of_isNewline hnewline with ⟨kind, rfl⟩
            exact absurd rfl (hkind kind)
      rw [cut_cons_of_unbroken ht]
      exact cuts_prepend ht ih

/-!
## Lines that grow
-/

/-- What follows some tokens is cut together with the line that they leave open, as long as
it does not complete their last terminator. -/
theorem cuts_append {ts us : List Token} {l m : Layout} (h : Cuts ts l)
    (hmore : Cuts (l.rest ++ us) m)
    (whole : ts.getLast? = some (.newline .cr) → us.head? ≠ some (.newline .lf)) :
    Cuts (ts ++ us) ⟨l.lines ++ m.lines, m.rest⟩ := by
  induction h with
  | last free => exact hmore
  | @line body ts rest ending ls free here more ih =>
      have hlater : ts.getLast? = some (.newline .cr) → us.head? ≠ some (.newline .lf) := by
        intro hlast
        apply whole
        simp [List.getLast?_append, hlast]
      have hnext : ending = .cr → (ts ++ us).head? ≠ some (.newline .lf) := by
        intro hending
        subst hending
        cases ts with
        | nil =>
            apply whole
            simp [List.getLast?_append, EndOfLine.tokens]
        | cons t ts => exact here rfl
      rw [List.append_assoc, List.append_assoc]
      exact .line free hnext (ih hmore hlater)

theorem unbroken_rest_of_cuts {ts : List Token} {l : Layout} (h : Cuts ts l) :
    Unbroken l.rest := by
  induction h with
  | last free => exact free
  | line _ _ _ ih => exact ih

theorem cuts_append_content {ts : List Token} {l : Layout} (h : Cuts ts l) {t : Token}
    (ht : t.isNewline = false) : Cuts (ts ++ [t]) ⟨l.lines, l.rest ++ [t]⟩ := by
  have free : Unbroken (l.rest ++ [t]) := by
    intro u hu
    rcases List.mem_append.mp hu with hrest | hlast
    · exact unbroken_rest_of_cuts h u hrest
    · rw [List.mem_singleton.mp hlast]
      exact ht
  have whole : ts.getLast? = some (.newline .cr) → [t].head? ≠ some (.newline .lf) := by
    intro _ hhead
    rw [Option.some.inj hhead] at ht
    cases ht
  have hcuts := cuts_append h (.last free) whole
  rwa [List.append_nil] at hcuts

theorem cuts_append_newline {ts : List Token} {l : Layout} (h : Cuts ts l) {kind : Newline}
    (whole : kind = .lf → ts.getLast? ≠ some (.newline .cr)) :
    Cuts (ts ++ [.newline kind]) ⟨l.lines ++ [⟨l.rest, kind.convention⟩], []⟩ := by
  have htokens : kind.convention.tokens = [.newline kind] := by cases kind <;> rfl
  have hend : kind.convention = .cr → [].head? ≠ some (Token.newline .lf) := by simp
  have hline := Cuts.line (unbroken_rest_of_cuts h) hend (.last unbroken_nil)
  rw [htokens] at hline
  apply cuts_append h hline
  intro hlast hhead
  have hkind : kind = .lf := by simpa using hhead
  exact whole hkind hlast

theorem cuts_append_of_cr {ts : List Token} {ls : List Line} {body : List Token}
    (h : Cuts ts ⟨ls ++ [⟨body, .cr⟩], []⟩) :
    Cuts (ts ++ [.newline .lf]) ⟨ls ++ [⟨body, .crlf⟩], []⟩ := by
  induction ls generalizing ts with
  | nil =>
      cases h with
      | @line _ us _ _ _ free _ more =>
          have hus : us = [] := (tokens_eq_of_cuts more).symm
          subst hus
          have hpair : EndOfLine.crlf = .cr → [].head? ≠ some (Token.newline .lf) := by simp
          have hline := Cuts.line free hpair (.last unbroken_nil)
          simpa [EndOfLine.tokens] using hline
  | cons l ls ih =>
      cases h with
      | @line first us _ ending _ free here more =>
          have hnext : ending = .cr → (us ++ [Token.newline .lf]).head? ≠
              some (.newline .lf) := by
            cases us with
            | nil =>
                have htokens := tokens_eq_of_cuts more
                simp [tokens, Line.tokens, EndOfLine.tokens] at htokens
            | cons t us => exact here
          rw [List.append_assoc, List.append_assoc]
          exact .line free hnext (ih more)

end Layout
end FileStyle
