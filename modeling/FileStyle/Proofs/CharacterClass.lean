import FileStyle.Proofs.NormalForm

/-!
# Classes and their negations

The section of a class alone is about the names of one character that the class has. Of a
class and its negation exactly one has a character, except for the separator, and except
where the body starts with a hyphen and goes on: the separator that the negation puts in
front of the body then makes a range with the hyphen.
-/

namespace FileStyle
namespace Glob

open Glyph

/-! ## The section of a class -/

theorem opening_not_mem_ofText {s : List Char} (h : '\x7b' ∉ s) : opening ∉ ofText s := by
  intro hmem
  have hchar := mem_toText hmem (c := '\x7b') (by simp [chars])
  rw [toText_ofText] at hchar
  exact h hchar

theorem Pattern.read_class {text body : List Char} {negated : Bool} (hclosed : ']' ∉ text)
    (hclass : ClassText text negated body) (hbody : body ≠ []) :
    Pattern.read ('[' :: (text ++ [']'])) =
      (CharSet.read negated body).map fun set => [.oneOf set] := by
  have hsplit : splitClass (text ++ [']']) = some (negated, body, []) :=
    splitClass_eq_some_iff.mpr ⟨text, rfl, hclosed, hclass, hbody⟩
  rw [Pattern.read_of_splitClass_some hsplit, Pattern.read]
  cases CharSet.read negated body with
  | error e => rfl
  | ok set => rfl

theorem Matcher.ofName_of_not_mem {name : String} (hseparator : '/' ∉ name.toList)
    (hbrace : '\x7b' ∉ name.toList) :
    Matcher.ofName name = (Pattern.read name.toList).map fun p => ⟨true, [p]⟩ := by
  have hglob : globOf name.toList = name.toList := globOf_of_not_mem hseparator
  have hfloating : (anchoring name.toList).1 = true :=
    (anchoring_floating _).mpr (.inl hseparator)
  have hopen : opening ∉ ofText (globOf name.toList) := by
    rw [hglob]
    exact opening_not_mem_ofText hbrace
  rw [Matcher.ofName_of_opening_not_mem hopen, hglob, hfloating]

theorem Pattern.acceptsBelow_oneOf (set : CharSet) (c : Char) :
    Pattern.acceptsBelow [.oneOf set] [c] = set.has c := by
  simp [acceptsBelow, accepts, marks, Atom.mark, Marks.atEnd, Marks.afterOne,
    Marks.afterSeparator, Marks.whole]

theorem sectionMatches_class {name : String} {text body : List Char} {negated : Bool}
    (hname : name.toList = '[' :: (text ++ [']']))
    (hplain : ∀ d ∈ text, d ∉ [']', '/', '\x7b'])
    (hclass : ClassText text negated body) (hbody : body ≠ []) (c : Char) :
    sectionMatches name (String.singleton c) =
      (CharSet.read negated body).map (·.has c) := by
  have hnone : ∀ d ∈ [']', '/', '\x7b'], d ∉ text := by
    intro d hd hmem
    exact hplain d hmem hd
  have hseparator : '/' ∉ name.toList := by
    rw [hname]
    simpa using hnone '/' (by simp)
  have hbrace : '\x7b' ∉ name.toList := by
    rw [hname]
    simpa using hnone '\x7b' (by simp)
  rw [sectionMatches, Matcher.ofName_of_not_mem hseparator hbrace, hname,
    Pattern.read_class (hnone ']' (by simp)) hclass hbody]
  cases CharSet.read negated body with
  | error e => rfl
  | ok set =>
      show Except.ok (Matcher.accepts ⟨true, [[.oneOf set]]⟩ (String.singleton c)) = _
      rw [Matcher.accepts, String.toList_singleton, List.any_cons, List.any_nil, Bool.or_false,
        if_pos rfl, Pattern.acceptsBelow_oneOf]
      rfl

/-! ## Negation -/

namespace CharSet

theorem has_negated (ranges : List (Char × Char)) (c : Char) :
    has ⟨true, ranges⟩ c = !has ⟨false, ranges⟩ c := by
  simp [has]

theorem has_cons (first last : Char) (ranges : List (Char × Char)) (c : Char) :
    has ⟨false, (first, last) :: ranges⟩ c =
      (decide (first ≤ c ∧ c ≤ last) || has ⟨false, ranges⟩ c) := by
  simp [has]

theorem readRanges_separator {body : List Char} (h : ∀ c rest, body ≠ '-' :: c :: rest) :
    readRanges ('/' :: body) = (readRanges body).map (('/', '/') :: ·) := by
  rw [readRanges]
  intro last rest heq
  exact h last rest heq

theorem read_negated {body : List Char} {ranges : List (Char × Char)}
    (hhyphen : ∀ c rest, body ≠ '-' :: c :: rest) (h : readRanges body = .ok ranges) :
    read true body = .ok ⟨true, ('/', '/') :: ranges⟩ := by
  rw [read, if_pos rfl, readRanges_separator hhyphen, h]
  rfl

/-- A hyphen that starts a negated body makes a range from the separator. -/
theorem read_negated_hyphen {last : Char} {rest : List Char} {ranges : List (Char × Char)}
    (hlast : '/' ≤ last) (h : readRanges rest = .ok ranges) :
    read true ('-' :: last :: rest) = .ok ⟨true, ('/', last) :: ranges⟩ := by
  rw [read, if_pos rfl, readRanges, if_neg (Char.not_lt.mpr hlast), h]
  rfl

end CharSet

/-- A class and its negation are complementary on the characters that are no separator,
unless the body is a hyphen with more behind it. The negated class can be read when the
class can. -/
theorem sectionMatches_negated_class {body : String} {m : Matcher} (hbody : body ≠ "")
    (hmark : body.toList.head? ≠ some '!') (hcaret : body.toList.head? ≠ some '^')
    (hplain : ∀ d ∈ body.toList, d ∉ [']', '/', '\x7b', '\x7d'])
    (hhyphen : ∀ d rest, body.toList ≠ '-' :: d :: rest)
    (hname : Matcher.ofName ("[" ++ body ++ "]") = .ok m) {c : Char} (hc : c ≠ '/') :
    ∃ inside, sectionMatches ("[" ++ body ++ "]") (String.singleton c) = .ok inside ∧
      sectionMatches ("[!" ++ body ++ "]") (String.singleton c) = .ok (!inside) := by
  have hne : body.toList ≠ [] := by
    intro hnil
    exact hbody (String.toList_eq_nil_iff.mp hnil)
  have hallowed : ∀ d ∈ body.toList, d ∉ [']', '/', '\x7b'] := by
    intro d hd hmem
    exact hplain d hd (List.mem_append_left ['\x7d'] hmem)
  have hmarked : ∀ d ∈ '!' :: body.toList, d ∉ [']', '/', '\x7b'] :=
    List.forall_mem_cons.mpr ⟨by decide, hallowed⟩
  have htext : ("[" ++ body ++ "]").toList = '[' :: (body.toList ++ [']']) := by simp
  have htext' : ("[!" ++ body ++ "]").toList = '[' :: ('!' :: body.toList ++ [']']) := by simp
  have hclass := sectionMatches_class htext hallowed (.plain hmark hcaret) hne c
  have hnegated := sectionMatches_class htext' hmarked (.marked body.toList) hne c
  have hcompiled : sectionMatches ("[" ++ body ++ "]") (String.singleton c) =
      .ok (m.accepts (String.singleton c)) := by
    rw [sectionMatches, hname]
    rfl
  rw [hcompiled] at hclass
  rcases map_eq_ok_iff.mp hclass.symm with ⟨set, hset, hinside⟩
  rcases map_eq_ok_iff.mp hset with ⟨ranges, hranges, rfl⟩
  have hapart : ¬ ('/' ≤ c ∧ c ≤ '/') := by
    intro hboth
    exact hc (Char.le_antisymm hboth.right hboth.left)
  refine ⟨_, hcompiled, ?_⟩
  rw [hnegated, CharSet.read_negated hhyphen hranges, ← hinside]
  show Except.ok (CharSet.has _ c) = _
  rw [CharSet.has_negated, CharSet.has_cons, decide_eq_false hapart, Bool.false_or]

theorem sectionMatches_negated_class_of_hyphens :
    sectionMatches "[b-d-]" "-" = .ok true ∧ sectionMatches "[!b-d-]" "-" = .ok false := by
  have hname : Matcher.ofName ("[" ++ "b-d-" ++ "]") =
      .ok ⟨true, [[.oneOf ⟨false, [('b', 'd'), ('-', '-')]⟩]]⟩ := by
    cbv
  have hhyphen : ∀ d rest, "b-d-".toList ≠ '-' :: d :: rest := by
    intro d rest heq
    cases heq
  have hplain : ∀ d ∈ "b-d-".toList, d ∉ [']', '/', '\x7b', '\x7d'] := by
    intro d hd
    change d ∈ ['b', '-', 'd', '-'] at hd
    have hcases : d = 'b' ∨ d = '-' ∨ d = 'd' ∨ d = '-' := by simpa using hd
    rcases hcases with rfl | rfl | rfl | rfl
    · decide
    · decide
    · decide
    · decide
  have hseparator : '-' ≠ '/' := by
    decide
  rcases sectionMatches_negated_class (by decide) (by decide) (by decide) hplain hhyphen hname
    hseparator with ⟨inside, hinside, houtside⟩
  have htrue : sectionMatches "[b-d-]" "-" = .ok true := by
    cbv
  have heq : inside = true := Except.ok.inj (hinside.symm.trans htrue)
  rw [heq] at houtside
  exact ⟨htrue, houtside⟩

theorem sectionMatches_negated_hyphen {last : Char} {rest : String}
    {ranges : List (Char × Char)} (hplain : ∀ d ∈ last :: rest.toList, d ∉ [']', '/', '\x7b'])
    (hlast : '/' ≤ last) (hranges : CharSet.readRanges rest.toList = .ok ranges) (c : Char) :
    sectionMatches ("[!-" ++ String.singleton last ++ rest ++ "]") (String.singleton c) =
      .ok (!(decide ('/' ≤ c ∧ c ≤ last) || CharSet.has ⟨false, ranges⟩ c)) := by
  have hmarked : ∀ d ∈ '!' :: '-' :: last :: rest.toList, d ∉ [']', '/', '\x7b'] :=
    List.forall_mem_cons.mpr ⟨by decide, List.forall_mem_cons.mpr ⟨by decide, hplain⟩⟩
  have htext : ("[!-" ++ String.singleton last ++ rest ++ "]").toList =
      '[' :: ('!' :: '-' :: last :: rest.toList ++ [']']) := by
    simp
  have hclass := sectionMatches_class htext hmarked (.marked ('-' :: last :: rest.toList))
    (List.cons_ne_nil _ _) c
  rw [hclass, CharSet.read_negated_hyphen hlast hranges]
  show Except.ok (CharSet.has _ c) = _
  rw [CharSet.has_negated, CharSet.has_cons]

/-- A letter that neither a class nor its negation has. -/
theorem sectionMatches_hyphen_class_and_negation :
    sectionMatches "[-z]" "a" = .ok false ∧ sectionMatches "[!-z]" "a" = .ok false := by
  constructor
  · cbv
  · cbv

end Glob
end FileStyle
