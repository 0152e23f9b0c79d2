import FileStyle.Proofs.RuleIndependence

/-!
# Line endings

Which terminator ends the lines of a file matters to the rule about terminators alone.
Main statements: lines may be converted from one convention to another without any other
finding changing, and a terminator after a line that was left open adds what this line
hides: white space at its end, and indentation of the wrong kind if it is blank.
-/

namespace FileStyle

open Token Finding

namespace Layout

/-!
## One convention for all lines
-/

def ofBodies (ending : EndOfLine) (bodies : List (List Token)) (rest : List Token) :
    Layout :=
  ⟨bodies.map fun body => ⟨body, ending⟩, rest⟩

variable {s : Style} {ending : EndOfLine} {bodies : List (List Token)} {rest : List Token}

theorem isNewline_of_head? {body : List Token} (free : Unbroken body) {t : Token}
    (h : body.head? = some t) : t.isNewline = false :=
  free t (List.mem_of_head? h)

theorem head?_ofBodies (hbodies : ∀ body ∈ bodies, Unbroken body) (hrest : Unbroken rest)
    {kind : Newline}
    (h : (ofBodies ending bodies rest).tokens.head? = some (.newline kind)) :
    ending.tokens.head? = some (.newline kind) := by
  cases bodies with
  | nil => cases isNewline_of_head? hrest h
  | cons body bodies =>
      have htokens : (ofBodies ending (body :: bodies) rest).tokens =
          body ++ (ending.tokens ++ (ofBodies ending bodies rest).tokens) :=
        tokens_line _ _ rest
      rw [htokens, List.head?_append, List.head?_append] at h
      cases hbody : body.head? with
      | some t =>
          rw [hbody] at h
          cases h
          cases isNewline_of_head? (hbodies body List.mem_cons_self) hbody
      | none =>
          rw [hbody] at h
          cases ending with
          | lf => exact h
          | crlf => exact h
          | cr => exact h

theorem cuts_ofBodies (hbodies : ∀ body ∈ bodies, Unbroken body) (hrest : Unbroken rest) :
    Cuts (ofBodies ending bodies rest).tokens (ofBodies ending bodies rest) := by
  induction bodies with
  | nil => exact .last hrest
  | cons body bodies ih =>
      rcases List.forall_mem_cons.mp hbodies with ⟨hbody, hmore⟩
      have whole : ending = .cr →
          (ofBodies ending bodies rest).tokens.head? ≠ some (.newline .lf) := by
        rintro rfl hhead
        cases head?_ofBodies hmore hrest hhead
      have hline := Cuts.line hbody whole (ih hmore)
      rwa [← tokens_line ⟨body, ending⟩] at hline

theorem endingFindings_of_kept (hrule : s.endOfLine.all (· = ending) = true)
    {next : Option Token}
    (hnext : ∀ kind, next = some (.newline kind) →
      ending.tokens.head? = some (.newline kind))
    (line : Nat) (body : List Token) : endingFindings s line body ending next = [] := by
  have hright : isWrongEnding s ending next = false := by
    cases hset : s.endOfLine with
    | none => cases ending <;> simp [isWrongEnding, hset]
    | some e =>
        have he : e = ending := by simpa [hset] using hrule
        subst he
        cases e with
        | crlf => simp [isWrongEnding, hset]
        | cr => simp [isWrongEnding, hset]
        | lf =>
            have hbare : next ≠ some (.newline .cr) := by
              intro heq
              cases hnext .cr heq
            simp [isWrongEnding, hset, hbare]
  rw [endingFindings, hright]
  rfl

theorem findingsFrom_ofBodies {a b : EndOfLine} {keptA keptB : Option EndOfLine}
    (ha : keptA.all (· = a) = true) (hb : keptB.all (· = b) = true)
    (hbodies : ∀ body ∈ bodies, Unbroken body) (hrest : Unbroken rest) (line : Nat) :
    findingsFrom { s with endOfLine := keptA } line (ofBodies a bodies rest).lines rest =
      findingsFrom { s with endOfLine := keptB } line (ofBodies b bodies rest).lines rest := by
  induction bodies generalizing line with
  | nil => rfl
  | cons body bodies ih =>
      rcases List.forall_mem_cons.mp hbodies with ⟨-, hmore⟩
      -- Both sides are brought to the same form, from which the terminators are gone.
      have hline : ∀ {e : EndOfLine} {kept : Option EndOfLine},
          kept.all (· = e) = true →
          lineFindings { s with endOfLine := kept } line ⟨body, e⟩
              (ofBodies e bodies rest).tokens.head? =
            indentFindings s line body true ++ unreadableFindings line body ++
              trailingFindings s line body := by
        intro e kept hkept
        have hending := endingFindings_of_kept (s := { s with endOfLine := kept }) hkept
          (fun kind hkind => head?_ofBodies hmore hrest hkind) line body
        rw [lineFindings, hending, List.append_nil]
        rfl
      have hfirst : ∀ e kept, findingsFrom { s with endOfLine := kept } line
            (ofBodies e (body :: bodies) rest).lines rest =
          lineFindings { s with endOfLine := kept } line ⟨body, e⟩
              (ofBodies e bodies rest).tokens.head? ++
            findingsFrom { s with endOfLine := kept } (line + 1)
              (ofBodies e bodies rest).lines rest := fun _ _ => rfl
      rw [hfirst, hfirst, hline ha, hline hb, ih hmore]

/-!
## A line left open
-/

theorem cuts_append_lineFeed {ts : List Token} {l : Layout} (h : Cuts ts l)
    (hopen : l.rest ≠ []) :
    Cuts (ts ++ [.newline .lf]) ⟨l.lines ++ [⟨l.rest, .lf⟩], []⟩ := by
  have whole : Newline.lf = .lf → ts.getLast? ≠ some (.newline .cr) := by
    -- Were nothing left, the new line feed would complete a carriage return here.
    intro _ hlast
    rw [← tokens_eq_of_cuts h, tokens, List.getLast?_append] at hlast
    cases hrest : l.rest.getLast? with
    | none => exact hopen (List.getLast?_eq_none_iff.mp hrest)
    | some t =>
        rw [hrest] at hlast
        cases hlast
        exact absurd (unbroken_rest_of_cuts h _ (List.mem_of_getLast? hrest)) (by decide)
  exact cuts_append_newline h whole

theorem getLast?_rest_of_cuts {ts : List Token} {l : Layout} (h : Cuts ts l) {t : Token}
    (hlast : ts.getLast? = some t) (ht : t.isNewline = false) :
    l.rest.getLast? = some t := by
  induction h with
  | last free => exact hlast
  | @line body ts rest ending ls free whole more ih =>
      apply ih
      rw [List.getLast?_append, List.getLast?_append] at hlast
      cases hmore : ts.getLast? with
      | some u => rwa [hmore] at hlast
      | none =>
          rw [hmore] at hlast
          cases ending <;> cases hlast <;> cases ht

/-- What a terminator after an open line brings to light about its white space. -/
def hiddenFindings (s : Style) (line : Nat) (rest : List Token) : List Finding :=
  (if isBlank rest ∧ rest.any (isWrongIndent s) then
      [⟨line, 1, rest.length + 1, .indentStyle, none⟩]
    else
      []) ++
    trailingFindings s line rest

def whitespaceReasons : List Reason := [.indentStyle, .trailingWhitespace]

theorem about_whitespace_indentFindings (s : Style) (line : Nat) (body : List Token)
    (isOver : Bool) :
    about whitespaceReasons (indentFindings s line body isOver) =
      if (isOver || !isBlank body) && (indentRun body).any (isWrongIndent s) then
        [⟨line, 1, (indentRun body).length + 1, .indentStyle, none⟩]
      else
        [] :=
  about_indentStyle_indentFindings (by simp [whitespaceReasons])
    (by simp [whitespaceReasons]) s line body isOver

theorem about_whitespace_lineFindings (s : Style) (line : Nat) (l : Line)
    (next : Option Token) :
    about whitespaceReasons (lineFindings s line l next) =
      about whitespaceReasons (indentFindings s line l.body true) ++
        trailingFindings s line l.body := by
  simp [lineFindings, whitespaceReasons]

theorem about_whitespace_open (s : Style) (line : Nat) (rest : List Token) :
    about whitespaceReasons (findingsFrom s line [] rest) =
      about whitespaceReasons (indentFindings s line rest false) := by
  simp [findingsFrom, openFindings, whitespaceReasons]

theorem about_whitespace_over (s : Style) (line : Nat) (rest : List Token) :
    about whitespaceReasons (indentFindings s line rest true) ++
        trailingFindings s line rest =
      about whitespaceReasons (indentFindings s line rest false) ++
        hiddenFindings s line rest := by
  rw [about_whitespace_indentFindings, about_whitespace_indentFindings, hiddenFindings]
  cases hblank : isBlank rest with
  | true => simp [indentRun_of_isBlank hblank]
  | false => simp

theorem about_whitespace_findingsFrom_append (s : Style) (line : Nat) (ls : List Line)
    (rest : List Token) :
    about whitespaceReasons (findingsFrom s line (ls ++ [⟨rest, .lf⟩]) []) =
      about whitespaceReasons (findingsFrom s line ls rest) ++
        hiddenFindings s (line + ls.length) rest := by
  induction ls generalizing line with
  | nil =>
      have hend : about whitespaceReasons (findingsFrom s (line + 1) [] []) = [] := by
        rw [about_whitespace_open]
        rfl
      have hline := about_whitespace_lineFindings s line ⟨rest, .lf⟩ none
      calc
        _ = about whitespaceReasons (lineFindings s line ⟨rest, .lf⟩ none) ++
              about whitespaceReasons (findingsFrom s (line + 1) [] []) :=
            about_append _ _ _
        _ = _ := by
          rw [hend, List.append_nil, hline, about_whitespace_over, about_whitespace_open]
          rfl
  | cons l ls ih =>
      have hnumber : line + 1 + ls.length = line + (l :: ls).length := by
        rw [List.length_cons]
        omega
      rw [List.cons_append, findingsFrom, findingsFrom, about_append, about_append,
        about_whitespace_lineFindings, about_whitespace_lineFindings, ih, hnumber,
        List.append_assoc, List.append_assoc, List.append_assoc]

theorem hiddenFindings_eq_nil_iff (s : Style) (line : Nat) (before : List Token)
    (last : Token) :
    hiddenFindings s line (before ++ [last]) = [] ↔
      ¬ (s.trimTrailingWhitespace = some true ∧ last.isIndent = true) ∧
        ¬ (isBlank (before ++ [last]) = true ∧
          (before ++ [last]).any (isWrongIndent s) = true) := by
  have htrailing : trailingFindings s line (before ++ [last]) = [] ↔
      ¬ (s.trimTrailingWhitespace = some true ∧ last.isIndent = true) := by
    rw [trailingFindings, ite_eq_right_iff, trailingLength_ne_zero_iff]
    simp only [List.cons_ne_nil, imp_false]
  rw [hiddenFindings, List.append_eq_nil_iff, htrailing, ite_eq_right_iff, and_comm]
  simp only [List.cons_ne_nil, imp_false]

end Layout

namespace Style

open Layout

/-- The terminators of a file can be converted: whatever the convention, a style without a
rule about terminators finds the same, and a style that asks for the convention finds
this too and blames no terminator. -/
theorem checkTokens_ofBodies (s : Style) {bodies : List (List Token)} {rest : List Token}
    (hbodies : ∀ body ∈ bodies, Unbroken body) (hrest : Unbroken rest) (a b : EndOfLine) :
    { s with endOfLine := none }.checkTokens (ofBodies a bodies rest).tokens =
        { s with endOfLine := none }.checkTokens (ofBodies b bodies rest).tokens ∧
      { s with endOfLine := some a }.checkTokens (ofBodies a bodies rest).tokens =
        { s with endOfLine := none }.checkTokens (ofBodies a bodies rest).tokens ∧
      about [.endOfLineMismatch]
        ({ s with endOfLine := some a }.checkTokens (ofBodies a bodies rest).tokens) = [] := by
  have hnone : ∀ e : EndOfLine, (none : Option EndOfLine).all (· = e) = true :=
    fun _ => rfl
  have hset : (some a).all (· = a) = true := by simp
  have hunasked : ¬ { s with endOfLine := none }.Asks .endOfLineMismatch :=
    fun h => h rfl
  have hkept : { s with endOfLine := some a }.checkTokens (ofBodies a bodies rest).tokens =
      { s with endOfLine := none }.checkTokens (ofBodies a bodies rest).tokens := by
    rw [checkTokens_of_cuts _ (cuts_ofBodies hbodies hrest),
      checkTokens_of_cuts _ (cuts_ofBodies hbodies hrest)]
    exact findingsFrom_ofBodies hset (hnone a) hbodies hrest 1
  refine ⟨?_, hkept, ?_⟩
  · rw [checkTokens_of_cuts _ (cuts_ofBodies hbodies hrest),
      checkTokens_of_cuts _ (cuts_ofBodies hbodies hrest)]
    exact findingsFrom_ofBodies (hnone a) (hnone b) hbodies hrest 1
  · rw [hkept, checkTokens_of_cuts _ (cuts_ofBodies hbodies hrest)]
    exact about_findingsFrom_of_not_asks hunasked 1 (by simp)

/-- Empty lines ended by single carriage returns and by pairs: what is at the end of the
first line is found either way. -/
theorem checkTokens_ofBodies_of_empty_lines :
    let bodies : List (List Token) := [[.valid [0x61], .indent .space], [], []]
    let rest : List Token := [.indent .tab, .valid [0x62]]
    let s : Style := { trimTrailingWhitespace := some true }
    (∀ body ∈ bodies, Unbroken body) ∧ Unbroken rest ∧
      s.checkTokens (ofBodies .cr bodies rest).tokens = [⟨1, 2, 3, .trailingWhitespace, none⟩] ∧
      s.checkTokens (ofBodies .crlf bodies rest).tokens =
        s.checkTokens (ofBodies .cr bodies rest).tokens ∧
      { s with endOfLine := some .crlf }.checkTokens (ofBodies .crlf bodies rest).tokens =
        s.checkTokens (ofBodies .cr bodies rest).tokens := by
  intro bodies rest s
  have hbodies : ∀ body ∈ bodies, Unbroken body := by
    simp [bodies, Unbroken, isNewline]
  have hrest : Unbroken rest := by
    simp [rest, Unbroken, isNewline]
  rcases checkTokens_ofBodies s hbodies hrest .crlf .cr with ⟨hsame, hkept, -⟩
  exact ⟨hbodies, hrest, by decide, hsame, hkept.trans hsame⟩

/-- A line feed after a file that ends without a terminator adds findings about white
space of the last line: about white space at its end, and about wrong indentation if
there is nothing else on it. They are the only ones that it adds, so that it adds none if
and only if the last line has no such white space. -/
theorem checkTokens_append_lineFeed (s : Style) (before : List Token) {last : Token}
    (h : last.isNewline = false) :
    ∃ l, Cuts (before ++ [last]) l ∧
      about whitespaceReasons (s.checkTokens (before ++ [last, .newline .lf])) =
        about whitespaceReasons (s.checkTokens (before ++ [last])) ++
          hiddenFindings s (1 + l.lines.length) l.rest ∧
      (about whitespaceReasons (s.checkTokens (before ++ [last, .newline .lf])) =
          about whitespaceReasons (s.checkTokens (before ++ [last])) ↔
        ¬ (s.trimTrailingWhitespace = some true ∧ last.isIndent = true) ∧
          ¬ (isBlank l.rest = true ∧ l.rest.any (isWrongIndent s) = true)) := by
  have hcut := cuts_cut (before ++ [last])
  have hend : (cut (before ++ [last])).rest.getLast? = some last :=
    getLast?_rest_of_cuts hcut List.getLast?_concat h
  rcases List.getLast?_eq_some_iff.mp hend with ⟨front, hfront⟩
  have hopen : (cut (before ++ [last])).rest ≠ [] := by simp [hfront]
  have hover := cuts_append_lineFeed hcut hopen
  rw [List.append_assoc, List.singleton_append] at hover
  have hadded : about whitespaceReasons (s.checkTokens (before ++ [last, .newline .lf])) =
      about whitespaceReasons (s.checkTokens (before ++ [last])) ++
        hiddenFindings s (1 + (cut (before ++ [last])).lines.length)
          (cut (before ++ [last])).rest := by
    rw [checkTokens_of_cuts s hover, checkTokens_of_cuts s hcut]
    exact about_whitespace_findingsFrom_append s 1 _ _
  refine ⟨cut (before ++ [last]), hcut, hadded, ?_⟩
  rw [hadded, List.append_right_eq_self, hfront]
  exact hiddenFindings_eq_nil_iff s _ front last

/-- A space at the end of an open line is found once the line is over. -/
theorem checkTokens_append_lineFeed_of_space :
    let s : Style := { trimTrailingWhitespace := some true }
    isNewline (.indent .space) = false ∧
      s.checkTokens [.valid [0x61], .indent .space] = [] ∧
      ¬ about whitespaceReasons
          (s.checkTokens [.valid [0x61], .indent .space, .newline .lf]) =
        about whitespaceReasons (s.checkTokens [.valid [0x61], .indent .space]) := by
  intro s
  have hlast : isNewline (.indent .space) = false := rfl
  rcases checkTokens_append_lineFeed s [.valid [0x61]] hlast with ⟨l, -, -, hsame⟩
  refine ⟨hlast, by decide, ?_⟩
  intro heq
  exact (hsame.mp heq).1 ⟨rfl, rfl⟩

/-- In a file that is a single tabulator nothing is found, although both rules about its
white space are broken. -/
theorem checkTokens_of_open_tab :
    let s : Style :=
      { indentStyle := some .space
        trimTrailingWhitespace := some true }
    s.checkTokens [.indent .tab] = [] ∧
      s.checkTokens [.indent .tab, .newline .lf] =
        [⟨1, 1, 2, .indentStyle, none⟩, ⟨1, 1, 2, .trailingWhitespace, none⟩] ∧
      about whitespaceReasons (s.checkTokens [.indent .tab]) ≠
        about whitespaceReasons (s.checkTokens [.indent .tab, .newline .lf]) := by
  decide

end Style
end FileStyle
