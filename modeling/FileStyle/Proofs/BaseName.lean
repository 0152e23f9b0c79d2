import FileStyle.Proofs.NormalForm
import FileStyle.Proofs.ReadableNames
import Mathlib.Data.List.DropRight

/-!
# Names without a separator

A section name without a separator looks at the last name of a path alone. None of its atoms
matches a separator, with one exception: a class that is not negated has the separator if
one of its ranges starts before the separator and ends behind it.
-/

namespace FileStyle
namespace Glob

/-! ## The last name of a path -/

/-- What follows the last separator of a path, or all of the path if it has none. -/
def baseName (path : List Char) : List Char :=
  path.rtakeWhile (· ≠ '/')

theorem separator_not_mem_baseName (path : List Char) : '/' ∉ baseName path := by
  intro hmem
  simpa using List.mem_rtakeWhile_imp hmem

theorem baseName_of_not_mem {path : List Char} (h : '/' ∉ path) : baseName path = path := by
  rw [baseName, List.rtakeWhile_eq_self_iff]
  intro c hc
  exact decide_eq_true fun heq => h (heq ▸ hc)

theorem baseName_append {name : List Char} (h : '/' ∉ name) (directories : List Char) :
    baseName (directories ++ '/' :: name) = name := by
  have hname : ∀ c ∈ name.reverse, decide (c ≠ '/') = true := by
    intro c hc
    exact decide_eq_true fun heq => h (heq ▸ List.mem_reverse.mp hc)
  rw [baseName, List.rtakeWhile, List.reverse_append, List.reverse_cons, List.append_assoc,
    List.takeWhile_append_of_pos hname]
  simp

theorem eq_baseName_or (path : List Char) :
    path = baseName path ∨ ∃ directories, path = directories ++ '/' :: baseName path := by
  by_cases hmem : '/' ∈ path.reverse
  · rcases List.eq_append_cons_of_mem hmem with ⟨name, directories, hpath, hname⟩
    have hcut : path = directories.reverse ++ '/' :: name.reverse := by
      rw [← List.reverse_reverse path, hpath]
      simp
    refine .inr ⟨directories.reverse, ?_⟩
    rw [hcut, baseName_append (by simpa using hname)]
  · exact .inl (baseName_of_not_mem (by simpa using hmem)).symm

theorem baseName_eq_iff {path name : List Char} (h : '/' ∉ name) :
    baseName path = name ↔
      name = path ∨ ∃ directories, path = directories ++ '/' :: name := by
  constructor
  · rintro rfl
    rcases eq_baseName_or path with hwhole | hbelow
    · exact .inl hwhole.symm
    · exact .inr hbelow
  · rintro (rfl | ⟨directories, rfl⟩)
    · exact baseName_of_not_mem h
    · exact baseName_append h directories

/-! ## Classes -/

namespace CharSet

theorem mem_of_mem_readRanges {body : List Char} {ranges : List (Char × Char)}
    (h : readRanges body = .ok ranges) :
    ∀ r ∈ ranges, r.1 ∈ body ∧ r.2 ∈ body := by
  fun_induction readRanges body generalizing ranges with
  | case1 =>
      cases h
      simp
  | case2 => cases h
  | case3 first last rest _ ih =>
      rcases map_eq_ok_iff.mp h with ⟨others, hothers, rfl⟩
      rw [List.forall_mem_cons]
      refine ⟨by simp, fun r hr => ?_⟩
      rcases ih hothers r hr with ⟨hfirst, hlast⟩
      exact ⟨by simp [hfirst], by simp [hlast]⟩
  | case4 c rest _ ih =>
      rcases map_eq_ok_iff.mp h with ⟨others, hothers, rfl⟩
      rw [List.forall_mem_cons]
      refine ⟨by simp, fun r hr => ?_⟩
      rcases ih hothers r hr with ⟨hfirst, hlast⟩
      exact ⟨by simp [hfirst], by simp [hlast]⟩

theorem exists_range_of_cons {c : Char} {body : List Char} {ranges : List (Char × Char)}
    (h : readRanges (c :: body) = .ok ranges) : ∃ last, c ≤ last ∧ (c, last) ∈ ranges := by
  unfold readRanges at h
  split at h
  · next hnil => cases hnil
  · next first last rest heq =>
      cases heq
      split at h
      · cases h
      · next hup =>
          rcases map_eq_ok_iff.mp h with ⟨others, -, rfl⟩
          exact ⟨last, Char.not_lt.mp hup, List.mem_cons_self⟩
  · next first rest _ heq =>
      cases heq
      rcases map_eq_ok_iff.mp h with ⟨others, -, rfl⟩
      exact ⟨c, Char.le_refl c, List.mem_cons_self⟩

/-- A class that is not negated has a range from before the separator to behind it. -/
def SpansSeparator (s : CharSet) : Prop :=
  s.negated = false ∧ ∃ r ∈ s.ranges, r.1 < '/' ∧ '/' < r.2

instance (s : CharSet) : Decidable s.SpansSeparator :=
  inferInstanceAs (Decidable (_ ∧ _))

/-- A negated class has no separator, since its ranges start with one. -/
theorem has_separator_of_negated {body : List Char} {s : CharSet} (h : read true body = .ok s) :
    s.has '/' = false := by
  rcases map_eq_ok_iff.mp h with ⟨ranges, hranges, rfl⟩
  rcases exists_range_of_cons hranges with ⟨last, hlast, hmem⟩
  have hany : ranges.any (fun r => r.1 ≤ '/' && '/' ≤ r.2) = true :=
    List.any_eq_true.mpr ⟨_, hmem, by simpa using hlast⟩
  rw [has, hany]
  rfl

theorem has_separator_iff {negated : Bool} {body : List Char} {s : CharSet}
    (h : read negated body = .ok s) (hbody : '/' ∉ body) :
    s.has '/' = true ↔ s.SpansSeparator := by
  cases negated with
  | true =>
      rw [has_separator_of_negated h]
      rcases map_eq_ok_iff.mp h with ⟨ranges, -, rfl⟩
      simp [SpansSeparator]
  | false =>
      rcases map_eq_ok_iff.mp h with ⟨ranges, hranges, rfl⟩
      have hmem := mem_of_mem_readRanges hranges
      have hends : ∀ r ∈ ranges, (r.1 ≤ '/' ↔ r.1 < '/') ∧ ('/' ≤ r.2 ↔ '/' < r.2) := by
        intro r hr
        have hfirst : r.1 ≠ '/' := fun heq => hbody (heq ▸ (hmem r hr).left)
        have hlast : '/' ≠ r.2 := fun heq => hbody (heq ▸ (hmem r hr).right)
        exact ⟨⟨hfirst.lt_of_le, le_of_lt⟩, ⟨hlast.lt_of_le, le_of_lt⟩⟩
      simp only [has, SpansSeparator, Bool.bne_false, List.any_eq_true, Bool.and_eq_true,
        decide_eq_true_eq, true_and]
      refine exists_congr fun r => and_congr_right fun hr => ?_
      rw [(hends r hr).left, (hends r hr).right]

end CharSet

/-! ## Atoms that match no separator -/

namespace Atom

def StaysInName (a : Atom) : Prop :=
  ∀ slice, a.Matches slice → '/' ∉ slice

def SpansSeparator : Atom → Prop
  | oneOf set => set.SpansSeparator
  | _ => False

instance : DecidablePred SpansSeparator
  | literal _ => inferInstanceAs (Decidable False)
  | deepSeparator => inferInstanceAs (Decidable False)
  | anything => inferInstanceAs (Decidable False)
  | run => inferInstanceAs (Decidable False)
  | single => inferInstanceAs (Decidable False)
  | oneOf set => inferInstanceAs (Decidable set.SpansSeparator)

theorem staysInName_literal {c : Char} (h : c ≠ '/') : (literal c).StaysInName := by
  rintro slice rfl
  simpa using Ne.symm h

theorem staysInName_run : run.StaysInName :=
  fun _ h => h

theorem staysInName_single : single.StaysInName := by
  rintro slice ⟨c, hc, rfl⟩
  simpa using Ne.symm hc

theorem staysInName_oneOf_iff {set : CharSet} :
    (oneOf set).StaysInName ↔ set.has '/' = false := by
  constructor
  · intro h
    rw [Bool.eq_false_iff]
    intro hhas
    exact h ['/'] ⟨'/', hhas, rfl⟩ (by simp)
  · rintro h slice ⟨c, hc, rfl⟩ hmem
    rw [List.mem_singleton.mp hmem, hc] at h
    cases h

end Atom

namespace Pattern

theorem separator_not_mem_of_matches {p : Pattern} {s : List Char}
    (hp : ∀ a ∈ p, a.StaysInName) (h : p.Matches s) : '/' ∉ s := by
  induction p generalizing s with
  | nil =>
      rw [matches_nil_iff.mp h]
      simp
  | cons a p ih =>
      rcases List.forall_mem_cons.mp hp with ⟨ha, hrest⟩
      rcases matches_cons_iff.mp h with ⟨slice, rest, rfl, hslice, htail⟩
      intro hmem
      rcases List.mem_append.mp hmem with hin | hin
      · exact ha slice hslice hin
      · exact ih hrest htail hin

theorem SpelledBy.staysInName_iff {p : Pattern} {s : List Char} (h : p.SpelledBy s)
    (hseparator : '/' ∉ s) (hstars : ¬ ['*', '*'] <:+: s) :
    ∀ a ∈ p, a.StaysInName ↔ ¬ a.SpansSeparator := by
  have hliteral : ∀ {c : Char}, c ≠ '/' →
      ((Atom.literal c).StaysInName ↔ ¬ (Atom.literal c).SpansSeparator) :=
    fun hc => iff_of_true (Atom.staysInName_literal hc) not_false
  have hbehind : ∀ (front : List Char) {s : List Char}, '/' ∉ front ++ s →
      ¬ ['*', '*'] <:+: front ++ s → '/' ∉ s ∧ ¬ ['*', '*'] <:+: s := by
    intro front s hnone hfree
    refine ⟨fun hmem => hnone (List.mem_append_right _ hmem), fun hinfix => hfree ?_⟩
    exact hinfix.trans (List.suffix_append front s).isInfix
  induction h with
  | nil => simp
  | @escaped p s c _ ih =>
      rcases hbehind ['\\', c] hseparator hstars with ⟨hrest, hfree⟩
      have hc : c ≠ '/' := fun heq => hseparator (by simp [heq])
      exact List.forall_mem_cons.mpr ⟨hliteral hc, ih hrest hfree⟩
  | deepSeparator => exact absurd List.mem_cons_self hseparator
  | @anything p s _ _ => exact absurd (List.prefix_append ['*', '*'] s).isInfix hstars
  | @run p s _ _ ih =>
      rcases hbehind ['*'] hseparator hstars with ⟨hrest, hfree⟩
      exact List.forall_mem_cons.mpr
        ⟨iff_of_true Atom.staysInName_run not_false, ih hrest hfree⟩
  | @single p s _ ih =>
      rcases hbehind ['?'] hseparator hstars with ⟨hrest, hfree⟩
      exact List.forall_mem_cons.mpr
        ⟨iff_of_true Atom.staysInName_single not_false, ih hrest hfree⟩
  | @oneOf p s text body negated set hclosed hclass hbody hset _ ih =>
      have hsplit : '[' :: (text ++ ']' :: s) = '[' :: (text ++ [']']) ++ s := by simp
      rw [hsplit] at hseparator hstars
      rcases hbehind _ hseparator hstars with ⟨hrest, hfree⟩
      have hinside : '/' ∉ body := by
        intro hmem
        have htext : '/' ∈ text := by
          cases hclass with
          | plain => exact hmem
          | marked => exact List.mem_cons_of_mem _ hmem
          | careted => exact List.mem_cons_of_mem _ hmem
        exact hseparator (by simp [htext])
      refine List.forall_mem_cons.mpr ⟨?_, ih hrest hfree⟩
      rw [Atom.staysInName_oneOf_iff, ← Bool.not_eq_true,
        CharSet.has_separator_iff hset hinside]
      rfl
  | @bracket p s _ _ ih =>
      rcases hbehind ['['] hseparator hstars with ⟨hrest, hfree⟩
      exact List.forall_mem_cons.mpr ⟨hliteral (by decide), ih hrest hfree⟩
  | @ordinary p s c _ _ _ _ ih =>
      rcases hbehind [c] hseparator hstars with ⟨hrest, hfree⟩
      have hc : c ≠ '/' := fun heq => hseparator (by simp [heq])
      exact List.forall_mem_cons.mpr ⟨hliteral hc, ih hrest hfree⟩

end Pattern

/-! ## Sections -/

theorem Matcher.accepts_iff_of_staysInName {m : Matcher} (hfloating : m.floating = true)
    (hstays : ∀ p ∈ m.patterns, ∀ a ∈ p, a.StaysInName) (path : String) :
    m.accepts path = true ↔ ∃ p ∈ m.patterns, p.Matches (baseName path.toList) := by
  rw [Matcher.accepts_iff]
  refine exists_congr fun p => and_congr_right fun hp => ?_
  constructor
  · rintro ⟨r, hr, hmatches⟩
    have hfree := Pattern.separator_not_mem_of_matches (hstays p hp) hmatches
    have hbase : baseName path.toList = r := by
      rw [baseName_eq_iff hfree]
      exact hr.imp_right fun hbelow => hbelow.right
    rwa [hbase]
  · intro hmatches
    refine ⟨_, ?_, hmatches⟩
    rcases eq_baseName_or path.toList with hwhole | hbelow
    · exact .inl hwhole.symm
    · exact .inr ⟨hfloating, hbelow⟩

/-- In a section name without separators, whose expansions have no double star, an atom
matches no separator unless it is a class across the separator. Where there is no such class
the section looks only at the last name of a path. -/
theorem sectionMatches_baseName {name : String} {m : Matcher}
    (hname : Matcher.ofName name = .ok m) (hseparator : '/' ∉ name.toList)
    (hstars : ∀ globs, expansions name = .ok globs →
      ∀ glob ∈ globs, ¬ ['*', '*'] <:+: glob.toList) :
    (∀ p ∈ m.patterns, ∀ a ∈ p,
      (∀ slice, a.Matches slice → '/' ∉ slice) ↔ ¬ a.SpansSeparator) ∧
    ((∀ p ∈ m.patterns, ∀ a ∈ p, ¬ a.SpansSeparator) →
      ∀ path : String, sectionMatches name path =
        sectionMatches name (String.ofList (baseName path.toList))) := by
  have hglob := globOf_of_not_mem hseparator
  rcases Matcher.ofName_eq_ok_iff.mp hname with ⟨expanded, ps, hexpand, hps, hm⟩
  rw [hglob] at hexpand
  have hstays : ∀ p ∈ m.patterns, ∀ a ∈ p, a.StaysInName ↔ ¬ a.SpansSeparator := by
    rw [hm]
    intro p hp
    rcases (Matcher.exists_mem_readPatterns hps (· = p)).mp ⟨p, hp, rfl⟩ with
      ⟨e, he, q, hspelled, rfl⟩
    have hglobs := expansions_eq_ok hexpand
    have htext : String.ofList (Glyph.toText e) ∈
        expanded.map fun e => String.ofList (Glyph.toText e) :=
      List.mem_map_of_mem he
    have hnames := separator_not_mem_of_mem_expansions hglobs htext hseparator
    have hfree := hstars _ hglobs _ htext
    rw [String.toList_ofList] at hnames hfree
    exact hspelled.staysInName_iff hnames hfree
  refine ⟨hstays, fun hnone path => ?_⟩
  have hfloating : m.floating = true := by
    rw [hm]
    exact (anchoring_floating _).mpr (.inl hseparator)
  have hall : ∀ p ∈ m.patterns, ∀ a ∈ p, a.StaysInName :=
    fun p hp a ha => (hstays p hp a ha).mpr (hnone p hp a ha)
  have hsame : m.accepts path = m.accepts (String.ofList (baseName path.toList)) := by
    rw [Bool.eq_iff_iff, Matcher.accepts_iff_of_staysInName hfloating hall,
      Matcher.accepts_iff_of_staysInName hfloating hall, String.toList_ofList,
      baseName_of_not_mem (separator_not_mem_baseName _)]
  rw [sectionMatches, sectionMatches, hname]
  exact congrArg Except.ok hsame

/-- A star, a class, and a negated class with a range across the separator. -/
theorem sectionMatches_baseName_of_header :
    sectionMatches "\x7b*.[ch],[!.-z]?\x7d" "lib/src/a.h" =
        sectionMatches "\x7b*.[ch],[!.-z]?\x7d" "a.h" ∧
      sectionMatches "\x7b*.[ch],[!.-z]?\x7d" "a.h" = .ok true := by
  have hname : Matcher.ofName "\x7b*.[ch],[!.-z]?\x7d" =
      .ok ⟨true, [[.run, .literal '.', .oneOf ⟨false, [('c', 'c'), ('h', 'h')]⟩],
        [.oneOf ⟨true, [('/', '/'), ('.', 'z')]⟩, .single]]⟩ := by
    cbv
  have hexpand : expansions "\x7b*.[ch],[!.-z]?\x7d" = .ok ["*.[ch]", "[!.-z]?"] := by
    cbv
  have hstars : ∀ globs, expansions "\x7b*.[ch],[!.-z]?\x7d" = .ok globs →
      ∀ glob ∈ globs, ¬ ['*', '*'] <:+: glob.toList := by
    intro globs hglobs
    rw [hexpand] at hglobs
    cases hglobs
    decide
  have hbase := (sectionMatches_baseName hname (by decide) hstars).right (by decide) "lib/src/a.h"
  have hmatches : sectionMatches "\x7b*.[ch],[!.-z]?\x7d" "a.h" = .ok true := by
    cbv
  exact ⟨hbase, hmatches⟩

/-- A class across the separator matches it, so that the section looks at two names. -/
theorem sectionMatches_class_across_separator :
    '/' ∉ "a[.-0]b".toList ∧ expansions "a[.-0]b" = .ok ["a[.-0]b"] ∧
      sectionMatches "a[.-0]b" "a/b" = .ok true ∧ baseName "a/b".toList = "b".toList ∧
      sectionMatches "a[.-0]b" "b" = .ok false := by
  refine ⟨by decide, ?_, ?_, by decide, ?_⟩
  · cbv
  · cbv
  · cbv

end Glob
end FileStyle
