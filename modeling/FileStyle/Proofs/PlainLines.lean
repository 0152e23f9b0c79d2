import FileStyle.Proofs.DecimalReading
import FileStyle.Proofs.SheetGrammar

/-!
# Lines of plain words

A plain word is made of small letters, digits, hyphens and underscores, none of which means
anything to the reader of a style file. So lines that each give a plain key a plain value are
read as these pairs, and below a header they are its section.
-/

namespace FileStyle

/-! ## Plain words -/

namespace Text

def plainCharacters : List Char :=
  (List.range 26).map (fun n => Char.ofNat (0x61 + n)) ++ digitCharacters ++ ['-', '_']

def isPlain (s : List Char) : Bool :=
  !s.isEmpty && s.all fun c => plainCharacters.contains c

def IsPlain (s : List Char) : Prop :=
  s ≠ [] ∧ ∀ c ∈ s, c ∈ plainCharacters

theorem isPlain_iff {s : List Char} : isPlain s = true ↔ IsPlain s := by
  simp [isPlain, IsPlain]

instance (s : List Char) : Decidable (IsPlain s) :=
  decidable_of_bool (isPlain s) isPlain_iff

theorem isBlank_of_plain {c : Char} (h : c ∈ plainCharacters) : isBlank c = false := by
  have hall : plainCharacters.all (fun c => !isBlank c) = true := by decide
  simpa using List.all_eq_true.mp hall c h

theorem isLineBreak_of_plain {c : Char} (h : c ∈ plainCharacters) : isLineBreak c = false := by
  have hall : plainCharacters.all (fun c => !isLineBreak c) = true := by decide
  simpa using List.all_eq_true.mp hall c h

theorem isLower_of_plain {c : Char} (h : c ∈ plainCharacters) : IsLower c := by
  have hall : plainCharacters.all
      (fun c => c != '\u03a3' && c != '\u0130' && lowercaseLetter c == c) = true := by
    decide +kernel
  simpa [IsLower, and_assoc] using List.all_eq_true.mp hall c h

theorem not_mark_of_plain {c : Char} (h : c ∈ plainCharacters) :
    c ∉ ['#', ';', '[', '=', ':', '\ufeff'] := by
  have hall : plainCharacters.all
      (fun c => !(['#', ';', '[', '=', ':', '\ufeff'].contains c)) = true := by
    decide
  simpa using List.all_eq_true.mp hall c h

theorem IsPlain.isTrimmed {s : List Char} (h : IsPlain s) : IsTrimmed s :=
  ⟨fun c hc => isBlank_of_plain (h.right c (List.mem_of_mem_head? hc)),
    fun c hc => isBlank_of_plain (h.right c (List.mem_of_mem_getLast? hc))⟩

theorem IsPlain.lowercase {s : List Char} (h : IsPlain s) : Text.lowercase s = s :=
  lowercaseFrom_of_isLower (fun c hc => isLower_of_plain (h.right c hc)) []

theorem trim_append_blank {s : List Char} {c : Char} (hc : isBlank c = true) (hne : s ≠ [])
    (h : IsTrimmed s) : trim (s ++ [c]) = s := by
  have hleft : trimLeft (s ++ [c]) = s ++ [c] := by
    apply dropWhile_of_isBlank_head?
    rw [List.head?_append_of_ne_nil _ hne]
    exact h.left
  calc
    trim (s ++ [c]) = trimRight (s ++ [c]) := by rw [trim, hleft]
    _ = trimRight s := by simp [trimRight, hc]
    _ = trim s := by rw [trim, trimLeft, dropWhile_of_isBlank_head? h.left]
    _ = s := trim_of_isTrimmed h

theorem lines_line {line : List Char} (h : line.any isLineBreak = false)
    (rest : List Char) : lines (line ++ '\n' :: rest) = line :: lines rest := by
  have hbreak : lines ('\n' :: rest) = [] :: lines rest := by simp [lines, isLineBreak]
  by_cases hne : line = []
  · rw [hne]
    exact hbreak
  · rw [lines_append_of_unbroken h hne, hbreak, List.headD_cons, List.tail_cons, List.append_nil]

end Text

theorem normalize_of_plain {s : String} (h : Text.IsPlain s.toList) : normalize s = s := by
  rw [normalize, Text.trim_of_isTrimmed h.isTrimmed, h.lowercase, String.ofList_toList]

/-! ## Pairs of plain words -/

def Line.pairText (pair : String × String) : List Char :=
  pair.1.toList ++ " = ".toList ++ pair.2.toList

structure PlainPair (pair : String × String) : Prop where
  key : Text.IsPlain pair.1.toList
  value : Text.IsPlain pair.2.toList
  ne_root : pair.1 ≠ "root"

namespace Line

variable {pair : String × String}

theorem head?_pairText (h : PlainPair pair) : (pairText pair).head? = pair.1.toList.head? := by
  rw [pairText, List.append_assoc, List.head?_append_of_ne_nil _ h.key.left]

theorem isTrimmed_pairText (h : PlainPair pair) : Text.IsTrimmed (pairText pair) := by
  constructor
  · rw [head?_pairText h]
    exact h.key.isTrimmed.left
  · rw [pairText, List.getLast?_append_of_ne_nil _ h.value.left]
    exact h.value.isTrimmed.right

theorem any_isLineBreak_pairText (h : PlainPair pair) :
    (pairText pair).any Text.isLineBreak = false := by
  have hplain : ∀ {s : List Char}, Text.IsPlain s → s.any Text.isLineBreak = false := by
    intro s hs
    rw [List.any_eq_false]
    intro c hc
    rw [Text.isLineBreak_of_plain (hs.right c hc)]
    exact Bool.false_ne_true
  have hmiddle : " = ".toList.any Text.isLineBreak = false := by decide
  rw [pairText, List.any_append, List.any_append, hplain h.key, hmiddle, hplain h.value]
  rfl

theorem tells_pairText (h : PlainPair pair) : Tells (pairText pair) (.pair pair.1 pair.2) := by
  rcases pair with ⟨key, value⟩
  have hkey : Text.IsPlain key.toList := h.key
  have hvalue : Text.IsPlain value.toList := h.value
  have hblank : Text.isBlank ' ' = true := by decide
  have hmark : ∀ mark ∈ ['#', ';', '[', '=', ':', '\ufeff'], mark ∉ key.toList :=
    fun mark hmark hmem => Text.not_mark_of_plain (hkey.right mark hmem) hmark
  have hline : pairText (key, value) = (key.toList ++ [' ']) ++ '=' :: (' ' :: value.toList) := by
    simp [pairText]
  have hname : Text.lowercase (Text.trim (key.toList ++ [' '])) = key.toList := by
    rw [Text.trim_append_blank hblank hkey.left hkey.isTrimmed, hkey.lowercase]
  have htext : Text.trim (' ' :: value.toList) = value.toList := by
    rw [Text.trim, Text.trimLeft_cons_of_blank hblank]
    exact Text.trim_of_isTrimmed hvalue.isTrimmed
  have hpair : Tells ((key.toList ++ [' ']) ++ '=' :: (' ' :: value.toList))
      (.pair (String.ofList (Text.lowercase (Text.trim (key.toList ++ [' ']))))
        (String.ofList (Text.trim (' ' :: value.toList)))) := by
    apply Tells.pair
    · intro c hc
      rw [List.head?_append_of_ne_nil _ hkey.left] at hc
      have hmem := List.mem_of_mem_head? hc
      exact ⟨fun heq => hmark '#' (by simp) (heq ▸ hmem),
        fun heq => hmark ';' (by simp) (heq ▸ hmem), fun heq => hmark '[' (by simp) (heq ▸ hmem)⟩
    · simp [hmark '=' (by simp), hmark ':' (by simp)]
    · exact .inl rfl
    · rcases List.exists_mem_of_ne_nil _ hkey.left with ⟨c, hc⟩
      exact ⟨c, List.mem_append_left _ hc, Text.isBlank_of_plain (hkey.right c hc)⟩
  rw [hname, htext, String.ofList_toList, String.ofList_toList] at hpair
  rw [hline]
  exact hpair

end Line

/-! ## The lines of a section -/

namespace StyleSheet

variable {pairs : List (String × String)}

def pairLines (number : Nat) (pairs : List (String × String)) : List (Nat × Line) :=
  (pairs.zipIdx number).map fun p => (p.2, .pair p.1.1 p.1.2)

def sectionText (pairs : List (String × String)) : List Char :=
  "[*]\n".toList ++ pairs.flatMap fun pair => Line.pairText pair ++ ['\n']

theorem pairLines_cons (number : Nat) (pair : String × String) (pairs : List (String × String)) :
    pairLines number (pair :: pairs) =
      (number, .pair pair.1 pair.2) :: pairLines (number + 1) pairs :=
  rfl

theorem lines_pairTexts (h : ∀ pair ∈ pairs, PlainPair pair) :
    Text.lines (pairs.flatMap fun pair => Line.pairText pair ++ ['\n']) =
      pairs.map Line.pairText := by
  induction pairs with
  | nil => exact Text.lines_nil
  | cons pair pairs ih =>
      rcases List.forall_mem_cons.mp h with ⟨hpair, hpairs⟩
      rw [List.flatMap_cons, List.append_assoc, List.singleton_append,
        Text.lines_line (Line.any_isLineBreak_pairText hpair), ih hpairs]
      rfl

theorem lineText_pairText {pair : String × String} (h : PlainPair pair) (number : Nat) :
    lineText number (Line.pairText pair) = Line.pairText pair := by
  have htrim : Text.trim (Line.pairText pair) = Line.pairText pair :=
    Text.trim_of_isTrimmed (Line.isTrimmed_pairText h)
  rw [lineText, htrim]
  split
  · cases hfirst : Line.pairText pair with
    | nil => rfl
    | cons c rest =>
        have hplain : c ∈ Text.plainCharacters := by
          apply h.key.right c
          apply List.mem_of_mem_head?
          rw [← Line.head?_pairText h, hfirst]
          rfl
        have hmark : c ≠ '\ufeff' := by
          intro heq
          exact Text.not_mark_of_plain hplain (by simp [heq])
        rw [List.dropWhile_cons_of_neg (by simpa using hmark)]
  · rfl

theorem say_pairTexts (h : ∀ pair ∈ pairs, PlainPair pair) (number : Nat) :
    Say (numberedFrom number (pairs.map Line.pairText)) (pairLines number pairs) := by
  induction pairs generalizing number with
  | nil => exact .nil
  | cons pair pairs ih =>
      rcases List.forall_mem_cons.mp h with ⟨hpair, hpairs⟩
      rw [List.map_cons, numberedFrom_cons, pairLines_cons, lineText_pairText hpair]
      exact .cons ⟨rfl, Line.tells_pairText hpair⟩ (ih hpairs (number + 1))

theorem say_section (h : ∀ pair ∈ pairs, PlainPair pair) (number : Nat) :
    Say (numberedFrom number (Text.lines (sectionText pairs)))
      ((number, .header "*") :: pairLines (number + 1) pairs) := by
  have hbreak : "[*]".toList.any Text.isLineBreak = false := by decide
  have hlines : Text.lines (sectionText pairs) = "[*]".toList :: pairs.map Line.pairText := by
    rw [← lines_pairTexts h]
    exact Text.lines_line hbreak _
  have hheader : lineText number "[*]".toList = "[*]".toList := by
    unfold lineText
    split
    · decide
    · decide
  have htells : Line.Tells "[*]".toList (.header "*") :=
    Line.read_eq_ok_iff.mp (by decide +kernel)
  rw [hlines, numberedFrom_cons, hheader]
  exact .cons ⟨rfl, htells⟩ (say_pairTexts h _)

/-! ## The section that they make -/

theorem ownPairs_pairLines (h : ∀ pair ∈ pairs, PlainPair pair) (number : Nat) :
    ownPairs (pairLines number pairs) = pairs := by
  induction pairs generalizing number with
  | nil => rfl
  | cons pair pairs ih =>
      rcases List.forall_mem_cons.mp h with ⟨hpair, hpairs⟩
      rw [pairLines_cons, ownPairs, if_neg hpair.ne_root, ih hpairs]

theorem blocks_pairLines (number : Nat) (pairs : List (String × String)) :
    blocks (pairLines number pairs) = [] := by
  induction pairs generalizing number with
  | nil => rfl
  | cons pair pairs ih => exact ih (number + 1)

theorem root?_pairLines (h : ∀ pair ∈ pairs, PlainPair pair) (number : Nat) :
    (pairLines number pairs).filterMap (·.2.root?) = [] := by
  induction pairs generalizing number with
  | nil => rfl
  | cons pair pairs ih =>
      rcases List.forall_mem_cons.mp h with ⟨hpair, hpairs⟩
      rw [pairLines_cons, List.filterMap_cons, Line.root?, if_neg hpair.ne_root]
      exact ih hpairs (number + 1)

theorem madeOf_section (h : ∀ pair ∈ pairs, PlainPair pair) (number : Nat) :
    List.Forall₂ MadeOf [⟨"*", number, Properties.ofList pairs⟩]
      (blocks ((number, .header "*") :: pairLines (number + 1) pairs)) := by
  rw [blocks, blocks_pairLines, ownPairs_pairLines h]
  exact .cons (madeOf_ofList ⟨number, "*", pairs⟩) .nil

theorem parse_section (h : ∀ pair ∈ pairs, PlainPair pair) :
    parse (sectionText pairs) = .ok ⟨false, [⟨"*", 1, Properties.ofList pairs⟩]⟩ := by
  refine parse_eq_ok_iff.mpr ⟨_, say_section h 1, madeOf_section h 1, ?_⟩
  rw [List.filterMap_cons, root?_pairLines h]
  rfl

theorem parse_root_section (h : ∀ pair ∈ pairs, PlainPair pair) :
    parse ("root = true\n".toList ++ sectionText pairs) =
      .ok ⟨true, [⟨"*", 2, Properties.ofList pairs⟩]⟩ := by
  have hbreak : "root = true".toList.any Text.isLineBreak = false := by decide
  have hlines : Text.lines ("root = true\n".toList ++ sectionText pairs) =
      "root = true".toList :: Text.lines (sectionText pairs) :=
    Text.lines_line hbreak _
  have hroot : Line.Tells (lineText 1 "root = true".toList) (.pair "root" "true") :=
    Line.read_eq_ok_iff.mp (by decide +kernel)
  have hsaid : (Line.pair "root" "true").root? = some true := by decide +kernel
  have hsay : Say (numbered ("root = true\n".toList ++ sectionText pairs))
      ((1, .pair "root" "true") :: (2, .header "*") :: pairLines 3 pairs) := by
    rw [numbered, hlines, numberedFrom_cons]
    exact .cons ⟨rfl, hroot⟩ (say_section h 2)
  refine parse_eq_ok_iff.mpr ⟨_, hsay, madeOf_section h 2, ?_⟩
  rw [List.filterMap_cons, List.filterMap_cons, root?_pairLines h, hsaid]
  rfl

end StyleSheet
end FileStyle
