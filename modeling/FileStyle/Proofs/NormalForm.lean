import FileStyle.Proofs.DecimalReading
import FileStyle.Proofs.Expandable
import FileStyle.Proofs.SectionMatch

/-!
# Expansions in normal form

An expansion has no opening brace. Its glyphs are those of the name, braces that are taken
literally, and the notation of integers, and none of them is read otherwise because of what
it now stands before. So an expansion that is taken as a name has itself as its only
expansion, and is one pattern.
-/

namespace FileStyle
namespace Glob

open Glyph

/-! ## One expansion at a time -/

/-- The second text is an expansion of the first: every group in turn is replaced by an
expansion of one of the texts that it stands for. -/
inductive IsExpansion : List Glyph → List Glyph → Prop where
  | text {gs : List Glyph} (h : opening ∉ gs) : IsExpansion gs gs
  | group {before body after part head tail : List Glyph} {parts : List (List Glyph)}
      (hbefore : opening ∉ before) (hbody : Balanced true body)
      (hparts : choices body = .ok parts) (hpart : part ∈ parts)
      (hhead : IsExpansion part head) (htail : IsExpansion after tail) :
      IsExpansion (before ++ opening :: (body ++ closing :: after)) (before ++ (head ++ tail))

theorem exists_of_mem_expandEach {parts heads : List (List Glyph)} {head : List Glyph}
    (h : expandEach parts = .ok heads) (hhead : head ∈ heads) :
    ∃ part ∈ parts, ∃ es, expand part = .ok es ∧ head ∈ es := by
  induction parts generalizing heads with
  | nil =>
      rw [expandEach] at h
      cases h
      cases hhead
  | cons first parts ih =>
      rw [expandEach] at h
      split at h
      · cases h
      · next es hes =>
          split at h
          · cases h
          · next others hothers =>
              cases h
              rcases List.mem_append.mp hhead with hin | hin
              · exact ⟨first, List.mem_cons_self, es, hes, hin⟩
              · rcases ih hothers hin with ⟨part, hpart, fs, hfs, hmem⟩
                exact ⟨part, List.mem_cons_of_mem _ hpart, fs, hfs, hmem⟩

theorem isExpansion_of_mem_expand {gs e : List Glyph} {es : List (List Glyph)}
    (h : expand gs = .ok es) (he : e ∈ es) : IsExpansion gs e := by
  induction hn : openings gs using Nat.strong_induction_on generalizing gs e es with
  | _ n ih =>
      rcases split_cases gs with hnone | ⟨before, rest, rfl, hbefore, hclose⟩ |
        ⟨before, body, after, rfl, hbefore, hbody⟩
      · rw [expand_of_not_mem hnone] at h
        cases h
        rw [List.mem_singleton.mp he]
        exact .text hnone
      · rw [expand_of_unmatched hbefore hclose] at h
        cases h
      · have hcount := openings_group before body after
        rcases exists_of_expand_group hbefore hbody h with
          ⟨parts, tails, heads, hparts, htails, hheads, rfl⟩
        rcases List.mem_map.mp he with ⟨joined, hjoined, rfl⟩
        rcases List.mem_flatMap.mp hjoined with ⟨head, hhead, hrest⟩
        rcases List.mem_map.mp hrest with ⟨tail, htail, rfl⟩
        rcases exists_of_mem_expandEach hheads hhead with ⟨part, hpart, fs, hfs, hhead⟩
        have hle : openings part ≤ openings body :=
          (openings_le_of_mem hpart).trans (totalOpenings_choices hparts)
        exact .group hbefore hbody hparts hpart (ih (openings part) (by omega) hfs hhead rfl)
          (ih (openings after) (by omega) htails htail rfl)

/-! ## The glyphs of an expansion -/

def addedGlyphs : List Glyph :=
  [escaped '\x7b', escaped '\x7d'] ++ ('-' :: Text.digitCharacters).map plain

theorem mem_addedGlyphs_of_integer {n : Int} {g : Glyph} (h : g ∈ integerGlyphs n) :
    g ∈ addedGlyphs := by
  rcases List.mem_map.mp h with ⟨c, hc, rfl⟩
  apply List.mem_append_right
  apply List.mem_map_of_mem
  cases n with
  | ofNat n => exact List.mem_cons_of_mem _ (Text.mem_decimalOfNat hc)
  | negSucc n =>
      rcases List.mem_cons.mp hc with rfl | hc
      · exact List.mem_cons_self
      · exact List.mem_cons_of_mem _ (Text.mem_decimalOfNat hc)

theorem mem_of_mem_choices {body part : List Glyph} {parts : List (List Glyph)} {g : Glyph}
    (hbody : Balanced true body) (h : choices body = .ok parts) (hpart : part ∈ parts)
    (hg : g ∈ part) : g ∈ body ∨ g ∈ addedGlyphs := by
  rcases choices_cases hbody h with ⟨ns, rfl⟩ | rfl | ⟨-, rfl⟩
  · rcases List.mem_map.mp hpart with ⟨n, -, rfl⟩
    exact .inr (mem_addedGlyphs_of_integer hg)
  · rw [List.mem_singleton.mp hpart] at hg
    rcases List.mem_cons.mp hg with rfl | hrest
    · exact .inr (by simp [addedGlyphs])
    · rcases List.mem_append.mp hrest with hinside | hlast
      · exact .inl hinside
      · rw [List.mem_singleton.mp hlast]
        exact .inr (by simp [addedGlyphs])
  · exact .inl ((slice_intercalate hpart).mem hg)

namespace IsExpansion

variable {gs e : List Glyph}

theorem opening_not_mem (h : IsExpansion gs e) : opening ∉ e := by
  induction h with
  | text h => exact h
  | group hbefore _ _ _ _ _ ihhead ihtail =>
      intro hmem
      rcases List.mem_append.mp hmem with hin | hin
      · exact hbefore hin
      · rcases List.mem_append.mp hin with hin | hin
        · exact ihhead hin
        · exact ihtail hin

theorem mem_or_mem_addedGlyphs (h : IsExpansion gs e) {g : Glyph} (hg : g ∈ e) :
    g ∈ gs ∨ g ∈ addedGlyphs := by
  induction h with
  | text => exact .inl hg
  | @group before body after part head tail parts _ hbody hparts hpart _ _ ihhead ihtail =>
      rcases List.mem_append.mp hg with hin | hin
      · exact .inl (List.mem_append_left _ hin)
      rcases List.mem_append.mp hin with hin | hin
      · rcases ihhead hin with hinside | hadded
        · rcases mem_of_mem_choices hbody hparts hpart hinside with hgroup | hadded
          · exact .inl ((body_slice before body after).mem hgroup)
          · exact .inr hadded
        · exact .inr hadded
      · rcases ihtail hin with hbehind | hadded
        · exact .inl ((after_slice before body after).mem hbehind)
        · exact .inr hadded

theorem separator_not_mem (h : IsExpansion gs e) (hgs : '/' ∉ toText gs) : '/' ∉ toText e := by
  have hadded : ∀ g ∈ addedGlyphs, '/' ∉ g.chars := by decide
  intro hmem
  rcases List.mem_flatMap.mp hmem with ⟨g, hg, hc⟩
  rcases h.mem_or_mem_addedGlyphs hg with hin | hin
  · exact hgs (mem_toText hin hc)
  · exact hadded g hin hc

end IsExpansion

/-! ## Glyphs that are read back -/

namespace Glyph

def IsWhole : Glyph → Prop
  | plain c => c ∉ ['\\', '\x7b', '\x7d', ',']
  | _ => True

instance : DecidablePred IsWhole
  | escaped _ => inferInstanceAs (Decidable True)
  | opening => inferInstanceAs (Decidable True)
  | closing => inferInstanceAs (Decidable True)
  | comma => inferInstanceAs (Decidable True)
  | plain c => inferInstanceAs (Decidable (c ∉ ['\\', '\x7b', '\x7d', ',']))

/-- Glyphs that are read as themselves. Only at the end is a backslash a glyph of its own. -/
inductive ReadBack : List Glyph → Prop where
  | nil : ReadBack []
  | backslash : ReadBack [plain '\\']
  | cons {g : Glyph} {gs : List Glyph} (hg : g.IsWhole) (h : ReadBack gs) : ReadBack (g :: gs)

theorem ofChar_of_isWhole {c : Char} (h : (plain c).IsWhole) : ofChar c = plain c := by
  have hne : c ≠ '\\' ∧ c ≠ '\x7b' ∧ c ≠ '\x7d' ∧ c ≠ ',' := by simpa [IsWhole] using h
  rw [ofChar, if_neg hne.right.left, if_neg hne.right.right.left, if_neg hne.right.right.right]

theorem isWhole_ofChar {c : Char} (h : c ≠ '\\') : (ofChar c).IsWhole := by
  unfold ofChar
  split
  · trivial
  · split
    · trivial
    · split
      · trivial
      · next hopen hclose hcomma =>
          show c ∉ ['\\', '\x7b', '\x7d', ',']
          simp [h, hopen, hclose, hcomma]

theorem ofText_cons_of_ne {c : Char} (h : c ≠ '\\') (s : List Char) :
    ofText (c :: s) = ofChar c :: ofText s := by
  rw [ofText]
  intro d rest hc _
  exact h hc

theorem ofText_chars_append {g : Glyph} (h : g.IsWhole) (s : List Char) :
    ofText (g.chars ++ s) = g :: ofText s := by
  cases g with
  | escaped c => rfl
  | opening => exact ofText_cons_of_ne (by decide) s
  | closing => exact ofText_cons_of_ne (by decide) s
  | comma => exact ofText_cons_of_ne (by decide) s
  | plain c =>
      have hc : c ≠ '\\' := fun heq => h (by simp [heq])
      rw [← ofChar_of_isWhole h]
      exact (congrArg (fun t => ofText (t ++ s)) (chars_ofChar c)).trans (ofText_cons_of_ne hc s)

theorem ofText_toText_append {gs : List Glyph} (h : ∀ g ∈ gs, g.IsWhole) (s : List Char) :
    ofText (toText gs ++ s) = gs ++ ofText s := by
  induction gs with
  | nil => rfl
  | cons g gs ih =>
      have hall := List.forall_mem_cons.mp h
      rw [toText_cons, List.append_assoc, ofText_chars_append hall.left, ih hall.right,
        List.cons_append]

theorem isWhole_of_mem_addedGlyphs : ∀ g ∈ addedGlyphs, g.IsWhole := by
  decide

namespace ReadBack

variable {gs hs : List Glyph}

theorem ofText_toText (h : ReadBack gs) : ofText (toText gs) = gs := by
  induction h with
  | nil => rfl
  | backslash => rfl
  | @cons g gs hg _ ih => rw [toText_cons, ofText_chars_append hg, ih]

theorem append (hgs : ∀ g ∈ gs, g.IsWhole) (h : ReadBack hs) : ReadBack (gs ++ hs) := by
  induction gs with
  | nil => exact h
  | cons g gs ih =>
      have hall := List.forall_mem_cons.mp hgs
      exact .cons hall.left (ih hall.right)

theorem of_append_cons {g : Glyph} (h : ReadBack (gs ++ g :: hs)) :
    (∀ other ∈ gs, other.IsWhole) ∧ ReadBack (g :: hs) := by
  induction gs with
  | nil => exact ⟨by simp, h⟩
  | cons first gs ih =>
      rw [List.cons_append] at h
      generalize hrest : gs ++ g :: hs = rest at h
      cases h with
      | backslash => simp at hrest
      | cons hfirst h =>
          subst hrest
          exact ⟨List.forall_mem_cons.mpr ⟨hfirst, (ih h).left⟩, (ih h).right⟩

theorem tail {g : Glyph} (h : ReadBack (g :: hs)) : ReadBack hs := by
  cases h with
  | backslash => exact .nil
  | cons _ h => exact h

end ReadBack

theorem readBack_ofText (s : List Char) : ReadBack (ofText s) := by
  fun_induction ofText s with
  | case1 => exact .nil
  | case2 c rest ih => exact .cons trivial ih
  | case3 c rest hback ih =>
      by_cases hc : c = '\\'
      · cases rest with
        | nil =>
            rw [hc]
            exact .backslash
        | cons d more => exact (hback d more hc rfl).elim
      · exact .cons (isWhole_ofChar hc) ih

end Glyph

/-! ## Expansions are read back -/

/-- An expansion is read as its glyphs, since those before a brace or a comma are whole. -/
theorem IsExpansion.readBack {gs e : List Glyph} (h : IsExpansion gs e) (hgs : ReadBack gs) :
    ReadBack e := by
  induction h with
  | text => exact hgs
  | @group before body after part head tail parts _ hbody hparts hpart hhead _ _ ihtail =>
      rcases hgs.of_append_cons with ⟨hbefore, hgroup⟩
      rcases hgroup.tail.of_append_cons with ⟨hinside, hbehind⟩
      have hheadWhole : ∀ g ∈ head, g.IsWhole := by
        intro g hg
        rcases hhead.mem_or_mem_addedGlyphs hg with hmem | hadded
        · rcases mem_of_mem_choices hbody hparts hpart hmem with hmem | hadded
          · exact hinside g hmem
          · exact isWhole_of_mem_addedGlyphs g hadded
        · exact isWhole_of_mem_addedGlyphs g hadded
      exact .append hbefore (.append hheadWhole (ihtail hbehind.tail))

theorem ofText_toText_of_mem_expand {s : List Char} {e : List Glyph} {es : List (List Glyph)}
    (h : expand (ofText s) = .ok es) (he : e ∈ es) : ofText (toText e) = e :=
  ((isExpansion_of_mem_expand h he).readBack (readBack_ofText s)).ofText_toText

theorem opening_not_mem_of_mem_expansions {name glob : String} {globs : List String}
    (h : expansions name = .ok globs) (hglob : glob ∈ globs) : opening ∉ ofText glob.toList := by
  rcases map_eq_ok_iff.mp h with ⟨es, hes, rfl⟩
  rcases List.mem_map.mp hglob with ⟨e, he, rfl⟩
  rw [String.toList_ofList, ofText_toText_of_mem_expand hes he]
  exact (isExpansion_of_mem_expand hes he).opening_not_mem

theorem expansions_of_mem_expansions {name glob : String} {globs : List String}
    (h : expansions name = .ok globs) (hglob : glob ∈ globs) : expansions glob = .ok [glob] :=
  expansions_of_opening_not_mem (opening_not_mem_of_mem_expansions h hglob)

theorem separator_not_mem_of_mem_expansions {name glob : String} {globs : List String}
    (h : expansions name = .ok globs) (hglob : glob ∈ globs) (hname : '/' ∉ name.toList) :
    '/' ∉ glob.toList := by
  rcases map_eq_ok_iff.mp h with ⟨es, hes, rfl⟩
  rcases List.mem_map.mp hglob with ⟨e, he, rfl⟩
  rw [String.toList_ofList]
  exact (isExpansion_of_mem_expand hes he).separator_not_mem (by rwa [toText_ofText])

/-! ## Names of one pattern -/

theorem globOf_of_not_mem {name : List Char} (h : '/' ∉ name) : globOf name = name := by
  have hroot := withoutRoot_of_not_mem h
  rw [globOf_of_not_deep, hroot]
  intro hdeep
  rw [hroot] at hdeep
  exact h (hdeep.mem (by simp))

theorem Matcher.ofName_of_opening_not_mem {name : String}
    (h : opening ∉ ofText (globOf name.toList)) :
    Matcher.ofName name = (Pattern.read (globOf name.toList)).map fun p =>
      ⟨(anchoring name.toList).1, [p]⟩ := by
  rw [← anchoring_glob] at h ⊢
  show (expand (ofText (anchoring name.toList).2) >>= fun globs => _) = _
  rw [expand_of_not_mem h]
  show (Matcher.readPatterns [ofText (anchoring name.toList).2] >>= fun ps => _) = _
  rw [Matcher.readPatterns, toText_ofText]
  cases Pattern.read (anchoring name.toList).2 with
  | error e => rfl
  | ok p => rfl

end Glob
end FileStyle
