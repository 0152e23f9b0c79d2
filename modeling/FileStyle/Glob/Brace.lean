import FileStyle.Text

/-!
# Braces in section names

A section name is read as glyphs, and its braces are expanded to alternatives.
-/

namespace FileStyle

/-!
## What can be wrong with a section name
-/

inductive GlobError where
  /-- An opening brace has no partner in the rest of the name that is given. -/
  | unmatchedBrace (rest : String)
  | tooManyDigits (count : Nat)
  | descendingRange (first last : Char)
  deriving DecidableEq, Repr

namespace GlobError

def message : GlobError → String
  | unmatchedBrace rest => "Unmatched '\x7b' in section pattern: " ++ Text.quoted rest
  | tooManyDigits count =>
      "Exceeds the limit (" ++ Text.decimal Text.maxDigits ++
        " digits) for integer string conversion: value has " ++ Text.decimal count ++
        " digits; use sys.set_int_max_str_digits() to increase the limit"
  | descendingRange first last =>
      "bad character range " ++ String.ofList [first, '-', last]

end GlobError

/-!
## Glyphs of a section name

A backslash takes the next character out of the language of globs. Reading a name as
glyphs settles this once: an escaped character is one glyph, and whether a brace or a
comma has its special meaning no longer depends on what stands before it. Main
statement: no text is lost, so a name can be read off its glyphs.
-/

namespace Glob

inductive Glyph where
  | escaped (c : Char)
  | opening
  | closing
  | comma
  | plain (c : Char)
  deriving DecidableEq, Repr

namespace Glyph

def chars : Glyph → List Char
  | escaped c => ['\\', c]
  | opening => ['\x7b']
  | closing => ['\x7d']
  | comma => [',']
  | plain c => [c]

def ofChar (c : Char) : Glyph :=
  if c = '\x7b' then opening
  else if c = '\x7d' then closing
  else if c = ',' then comma
  else plain c

/-- The glyphs of a text. A backslash at its end is an ordinary character. -/
def ofText : List Char → List Glyph
  | [] => []
  | '\\' :: c :: rest => escaped c :: ofText rest
  | c :: rest => ofChar c :: ofText rest

def toText (gs : List Glyph) : List Char :=
  gs.flatMap chars

@[simp] theorem toText_nil : toText [] = [] := rfl

@[simp] theorem toText_cons (g : Glyph) (gs : List Glyph) :
    toText (g :: gs) = g.chars ++ toText gs := rfl

@[simp] theorem toText_append (gs hs : List Glyph) :
    toText (gs ++ hs) = toText gs ++ toText hs := by
  simp [toText]

theorem chars_ofChar (c : Char) : (ofChar c).chars = [c] := by
  unfold ofChar
  split
  · next h => simp [chars, h]
  · split
    · next h => simp [chars, h]
    · split
      · next h => simp [chars, h]
      · rfl

theorem toText_ofText (s : List Char) : toText (ofText s) = s := by
  fun_induction ofText s with
  | case1 => rfl
  | case2 c rest ih => simp [chars, ih]
  | case3 c rest _ ih => simp [chars_ofChar, ih]

def openings (gs : List Glyph) : Nat :=
  gs.count opening

@[simp] theorem openings_nil : openings [] = 0 := rfl

@[simp] theorem openings_append (gs hs : List Glyph) :
    openings (gs ++ hs) = openings gs + openings hs := by
  simp [openings]

end Glyph
end Glob

/-!
## Brace expansion

A group in braces stands for several texts: the alternatives that commas separate, or
the integers of a range. A group of one alternative is no choice, and its braces are
taken literally. Expansion replaces every group by each of its texts in turn, the
earlier group varying slowest.

The number of opening braces bounds the recursion: what follows a group, what is
inside it, and its literal reading each have fewer.
-/

namespace Glob

open Glyph

/-! ### The parts of a group -/

def splitOpening : List Glyph → Option (List Glyph × List Glyph)
  | [] => none
  | opening :: rest => some ([], rest)
  | g :: rest => (splitOpening rest).map fun p => (g :: p.1, p.2)

/-- The body of a group and the glyphs after it, given the glyphs after its opening
brace and the number of inner groups that are open. -/
def splitClosing (depth : Nat) : List Glyph → Option (List Glyph × List Glyph)
  | [] => none
  | closing :: rest =>
      match depth with
      | 0 => some ([], rest)
      | depth + 1 => (splitClosing depth rest).map fun p => (closing :: p.1, p.2)
  | opening :: rest =>
      (splitClosing (depth + 1) rest).map fun p => (opening :: p.1, p.2)
  | g :: rest => (splitClosing depth rest).map fun p => (g :: p.1, p.2)

def consFirst (g : Glyph) : List (List Glyph) → List (List Glyph)
  | [] => [[g]]
  | first :: others => (g :: first) :: others

def alternatives (depth : Nat) : List Glyph → List (List Glyph)
  | [] => [[]]
  | comma :: rest =>
      if depth = 0 then
        [] :: alternatives 0 rest
      else
        consFirst comma (alternatives depth rest)
  | opening :: rest => consFirst opening (alternatives (depth + 1) rest)
  | closing :: rest => consFirst closing (alternatives (depth - 1) rest)
  | g :: rest => consFirst g (alternatives depth rest)

/-! ### Integer ranges -/

def takeDigits : List Char → List Nat × List Char
  | [] => ([], [])
  | c :: rest =>
      match Text.digitValue? c with
      | none => ([], c :: rest)
      | some d => (d :: (takeDigits rest).1, (takeDigits rest).2)

structure Bound where
  negative : Bool
  digits : List Nat
  deriving DecidableEq, Repr

namespace Bound

def read? (s : List Char) : Option (Bound × List Char) :=
  let (negative, s) :=
    match s with
    | '+' :: rest => (false, rest)
    | '-' :: rest => (true, rest)
    | rest => (false, rest)
  match takeDigits s with
  | ([], _) => none
  | (digits, rest) => some (⟨negative, digits⟩, rest)

def value (b : Bound) : Except GlobError Int :=
  if b.digits.length ≤ Text.maxDigits then
    .ok (if b.negative then -Int.ofNat (Text.ofDigits b.digits)
      else Int.ofNat (Text.ofDigits b.digits))
  else
    .error (.tooManyDigits b.digits.length)

end Bound

/-- The bounds of a text of the form `first..last`. A line feed may follow. -/
def rangeBounds? (s : List Char) : Option (Bound × Bound) :=
  match Bound.read? s with
  | some (first, '.' :: '.' :: rest) =>
      match Bound.read? rest with
      | some (last, []) => some (first, last)
      | some (last, ['\n']) => some (first, last)
      | _ => none
  | _ => none

def integersBetween (a b : Int) : List Int :=
  (List.range ((max a b - min a b).toNat + 1)).map fun (k : Nat) => min a b + k

def integerGlyphs (n : Int) : List Glyph :=
  (Text.decimalOfInt n).map .plain

/-- What a group stands for; its texts may hold further groups. -/
def choices (body : List Glyph) : Except GlobError (List (List Glyph)) :=
  match rangeBounds? (toText body) with
  | some (first, last) => do
      let a ← first.value
      let b ← last.value
      return (integersBetween a b).map integerGlyphs
  | none =>
      match alternatives 0 body with
      | [_] => .ok [escaped '\x7b' :: body ++ [escaped '\x7d']]
      | parts => .ok parts

/-!
### The measure
-/

def totalOpenings (parts : List (List Glyph)) : Nat :=
  parts.foldr (fun gs n => openings gs + n) 0

@[simp] theorem totalOpenings_nil : totalOpenings [] = 0 := rfl

@[simp] theorem totalOpenings_cons (gs : List Glyph) (parts : List (List Glyph)) :
    totalOpenings (gs :: parts) = openings gs + totalOpenings parts := rfl

theorem openings_cons (g : Glyph) (gs : List Glyph) :
    openings (g :: gs) = openings gs + if g = opening then 1 else 0 := by
  simp [openings, List.count_cons]

theorem totalOpenings_consFirst (g : Glyph) (parts : List (List Glyph)) :
    totalOpenings (consFirst g parts) =
      totalOpenings parts + if g = opening then 1 else 0 := by
  cases parts with
  | nil => simp [consFirst, totalOpenings, openings_cons]
  | cons first others =>
      simp [consFirst, totalOpenings, openings_cons]
      omega

theorem totalOpenings_alternatives (depth : Nat) (gs : List Glyph) :
    totalOpenings (alternatives depth gs) = openings gs := by
  fun_induction alternatives depth gs with
  | case1 => rfl
  | case2 rest ih => simpa [totalOpenings, openings_cons] using ih
  | case3 depth rest _ ih => simp [totalOpenings_consFirst, openings_cons, ih]
  | case4 depth rest ih => simp [totalOpenings_consFirst, openings_cons, ih]
  | case5 depth rest ih => simp [totalOpenings_consFirst, openings_cons, ih]
  | case6 depth g rest _ _ _ ih => simp [totalOpenings_consFirst, openings_cons, ih]

theorem openings_map_plain (cs : List Char) : openings (cs.map .plain) = 0 := by
  simp [openings, List.count_eq_zero]

theorem totalOpenings_integers (ns : List Int) :
    totalOpenings (ns.map integerGlyphs) = 0 := by
  induction ns with
  | nil => rfl
  | cons n ns ih => simpa [totalOpenings, integerGlyphs, openings_map_plain] using ih

theorem totalOpenings_choices {body : List Glyph} {parts : List (List Glyph)}
    (h : choices body = .ok parts) : totalOpenings parts ≤ openings body := by
  unfold choices at h
  split at h
  · next first last _ =>
      cases hfirst : first.value with
      | error e => simp [hfirst, bind, Except.bind] at h
      | ok a =>
          cases hlast : last.value with
          | error e => simp [hfirst, hlast, bind, Except.bind] at h
          | ok b =>
              simp only [hfirst, hlast, bind, Except.bind, pure, Except.pure,
                Except.ok.injEq] at h
              rw [← h, totalOpenings_integers]
              exact Nat.zero_le _
  · split at h
    · simp only [Except.ok.injEq] at h
      simp [← h, totalOpenings, openings_cons]
    · simp only [Except.ok.injEq] at h
      exact Nat.le_of_eq (h ▸ totalOpenings_alternatives 0 body)

theorem openings_splitClosing {depth : Nat} {gs body rest : List Glyph}
    (h : splitClosing depth gs = some (body, rest)) :
    openings body + openings rest = openings gs := by
  fun_induction splitClosing depth gs generalizing body rest with
  | case1 => simp at h
  | case2 rest' =>
      simp only [Option.some.injEq, Prod.mk.injEq] at h
      simp [← h.1, ← h.2, openings_cons]
  | case3 rest' depth ih =>
      obtain ⟨⟨b, r⟩, hp, heq⟩ := Option.map_eq_some_iff.1 h
      simp only [Prod.mk.injEq] at heq
      obtain ⟨rfl, rfl⟩ := heq
      simpa [openings_cons] using ih hp
  | case4 depth rest' ih =>
      obtain ⟨⟨b, r⟩, hp, heq⟩ := Option.map_eq_some_iff.1 h
      simp only [Prod.mk.injEq] at heq
      obtain ⟨rfl, rfl⟩ := heq
      have := ih hp
      simp only [openings_cons, if_true]
      omega
  | case5 depth g rest' _ hopen ih =>
      obtain ⟨⟨b, r⟩, hp, heq⟩ := Option.map_eq_some_iff.1 h
      simp only [Prod.mk.injEq] at heq
      obtain ⟨rfl, rfl⟩ := heq
      have := ih hp
      simp only [openings_cons]
      omega

theorem openings_splitOpening {gs before rest : List Glyph}
    (h : splitOpening gs = some (before, rest)) : openings rest < openings gs := by
  fun_induction splitOpening gs generalizing before rest with
  | case1 => simp at h
  | case2 rest' =>
      simp only [Option.some.injEq, Prod.mk.injEq] at h
      simp [← h.2, openings_cons]
  | case3 g rest' _ ih =>
      obtain ⟨⟨b, r⟩, hp, heq⟩ := Option.map_eq_some_iff.1 h
      simp only [Prod.mk.injEq] at heq
      obtain ⟨rfl, rfl⟩ := heq
      have := ih hp
      simp only [openings_cons]
      omega

/-!
### Expansion
-/

def product (heads tails : List (List Glyph)) : List (List Glyph) :=
  heads.flatMap fun head => tails.map fun tail => head ++ tail

mutual

/-- The expansions of a name, in order. What follows a group is expanded before what
is inside it, so an unmatched brace further right is found first. -/
def expand (gs : List Glyph) : Except GlobError (List (List Glyph)) :=
  match _hopen : splitOpening gs with
  | none => .ok [gs]
  | some (before, rest) =>
      match _hclose : splitClosing 0 rest with
      | none => .error (.unmatchedBrace (String.ofList (toText gs)))
      | some (body, after) =>
          match _hparts : choices body with
          | .error e => .error e
          | .ok parts =>
              match expand after with
              | .error e => .error e
              | .ok tails =>
                  match expandEach parts with
                  | .error e => .error e
                  | .ok heads => .ok ((product heads tails).map (before ++ ·))
termination_by (openings gs, 0)
decreasing_by
  · have h₁ := openings_splitOpening _hopen
    have h₂ := openings_splitClosing _hclose
    exact Prod.Lex.left _ _ (by omega)
  · have h₁ := openings_splitOpening _hopen
    have h₂ := openings_splitClosing _hclose
    have h₃ := totalOpenings_choices _hparts
    exact Prod.Lex.left _ _ (by omega)

def expandEach : List (List Glyph) → Except GlobError (List (List Glyph))
  | [] => .ok []
  | part :: parts =>
      match expand part with
      | .error e => .error e
      | .ok first =>
          match expandEach parts with
          | .error e => .error e
          | .ok others => .ok (first ++ others)
termination_by parts => (totalOpenings parts, parts.length + 1)
decreasing_by
  · rw [totalOpenings_cons]
    rcases Nat.eq_zero_or_pos (totalOpenings parts) with h | h
    · rw [h]
      exact Prod.Lex.right _ (Nat.succ_pos _)
    · exact Prod.Lex.left _ _ (by omega)
  · rw [totalOpenings_cons]
    rcases Nat.eq_zero_or_pos (openings part) with h | h
    · rw [h, Nat.zero_add]
      exact Prod.Lex.right _ (by simp)
    · exact Prod.Lex.left _ _ (by omega)

end

def expansions (pattern : String) : Except GlobError (List String) :=
  (expand (ofText pattern.toList)).map fun gss => gss.map fun gs => String.ofList (toText gs)

end Glob

end FileStyle
