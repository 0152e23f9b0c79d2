import FileStyle.Proofs.FindingsAbout
import FileStyle.Proofs.KeptBytes
import FileStyle.Proofs.Transcoding
import FileStyle.Proofs.WellFormedUtf8

/-!
# The preamble of a file

A byte-order mark at the start of a file is taken off before its lines are read, where the
character set asks for a mark or allows one. A mark that is taken off leaves no trace, a mark
that is asked for and missing is one finding in front of the others, and a second mark is a
token that cannot be read.
-/

namespace FileStyle

/-!
## The token of the mark
-/

namespace Charset

def takingMark : List Charset := [utf8Bom, utf16be, utf16le]

/-- The character sets that take a mark off and do not miss it, with the bytes of the mark. -/
def optionalMarks : List (Charset × List UInt8) :=
  [(utf16le, [0xFF, 0xFE]), (utf16be, [0xFE, 0xFF])]

end Charset

namespace Decoder

open Charset

variable {charset : Option Charset} {mark bytes rest : List UInt8}

theorem next?_mark (h : encode? charset '\ufeff' = some mark) (rest : List UInt8) :
    (ofCharset charset).next? (mark ++ rest) = some (.bom, rest) := by
  cases charset with
  | none => cases h
  | some set =>
      cases set with
      | latin1 => cases h
      | utf8 =>
          cases h
          exact Utf8.next?_char '\ufeff' rest
      | utf8Bom =>
          cases h
          exact Utf8.next?_char '\ufeff' rest
      | utf16be =>
          cases h
          exact Utf16.next?_char .bigEndian '\ufeff' rest
      | utf16le =>
          cases h
          exact Utf16.next?_char .littleEndian '\ufeff' rest

theorem next?_eq_bom_iff (h : encode? charset '\ufeff' = some mark) :
    (ofCharset charset).next? bytes = some (.bom, rest) ↔ bytes = mark ++ rest := by
  constructor
  · intro hnext
    rcases (keeps_ofCharset charset).next? hnext with ⟨part, hpart, rfl, -⟩
    have hbom : encode? charset '\ufeff' = some part := hpart
    rw [h] at hbom
    cases hbom
    rfl
  · rintro rfl
    exact next?_mark h rest

theorem tokens_mark_append (h : encode? charset '\ufeff' = some mark) (rest : List UInt8) :
    (ofCharset charset).tokens (mark ++ rest) = .bom :: (ofCharset charset).tokens rest :=
  tokens_of_next? (next?_mark h rest)

theorem head?_tokens_eq_bom_iff (h : encode? charset '\ufeff' = some mark) :
    ((ofCharset charset).tokens bytes).head? = some .bom ↔ mark <+: bytes := by
  constructor
  · intro hhead
    rcases List.head?_eq_some_iff.mp hhead with ⟨ts, hts⟩
    rcases exists_next?_of_tokens hts with ⟨rest, hnext, -⟩
    exact ⟨rest, ((next?_eq_bom_iff h).mp hnext).symm⟩
  · rintro ⟨rest, rfl⟩
    rw [tokens_mark_append h]
    rfl

end Decoder

/-!
## Tokens that cannot be read
-/

namespace Layout

open Token Finding

theorem length_unreadableFindings (line : Nat) (body : List Token) :
    (unreadableFindings line body).length = body.countP isUnreadable := by
  induction body using List.reverseRecOn with
  | nil => rfl
  | append_singleton body t ih =>
      rw [unreadableFindings_append, List.length_append, ih, List.countP_append,
        List.countP_singleton]
      split
      · rfl
      · rfl

theorem countP_isUnreadable_ending (ending : EndOfLine) :
    ending.tokens.countP isUnreadable = 0 := by
  cases ending with
  | lf => rfl
  | crlf => rfl
  | cr => rfl

theorem length_about_findingsFrom (s : Style) (line : Nat) (ls : List Line)
    (rest : List Token) :
    (about [.invalidCharacter] (findingsFrom s line ls rest)).length =
      (Layout.mk ls rest).tokens.countP isUnreadable := by
  have hindent : ∀ line body isOver,
      about [.invalidCharacter] (indentFindings s line body isOver) = [] :=
    fun line body isOver => about_indentFindings_of_not_mem (by simp) (by simp) s line body isOver
  induction ls generalizing line with
  | nil =>
      rw [findingsFrom, openFindings, about_append, about_append, hindent]
      simp [length_unreadableFindings]
  | cons l ls ih =>
      rw [findingsFrom, lineFindings, about_append, List.length_append, ih, tokens_line,
        List.countP_append, List.countP_append, countP_isUnreadable_ending]
      simp [hindent, length_unreadableFindings]

end Layout

/-!
## Files
-/

namespace Style

open Layout Token Finding

theorem length_about_checkTokens (s : Style) (ts : List Token) :
    (about [.invalidCharacter] (s.checkTokens ts)).length = ts.countP isUnreadable := by
  have hcuts := cuts_cut ts
  rw [checkTokens_of_cuts s hcuts, findings, length_about_findingsFrom]
  exact congrArg (List.countP isUnreadable) (tokens_eq_of_cuts hcuts)

theorem checkTokens_bom_ne (s : Style) (ts : List Token) :
    s.checkTokens (.bom :: ts) ≠ s.checkTokens ts := by
  intro heq
  have hlength := length_about_checkTokens s (.bom :: ts)
  rw [heq, length_about_checkTokens, List.countP_cons_of_pos rfl] at hlength
  exact Nat.ne_of_lt (Nat.lt_succ_self _) hlength

theorem checkTokens_charset (s : Style) (charset : Option Charset) (ts : List Token) :
    { s with charset := charset }.checkTokens ts = s.checkTokens ts :=
  Cursor.report_charset s charset .start ts

theorem preamble_utf8Bom_of_unmarked {ts : List Token} (h : ts.head? ≠ some .bom) :
    preamble (some .utf8Bom) ts = ([bomNotFound], ts) := by
  cases ts with
  | nil => rfl
  | cons t ts =>
      cases t with
      | bom => exact absurd rfl h
      | newline kind => rfl
      | indent kind => rfl
      | valid bytes => rfl
      | invalid bytes => rfl

variable {charset : Charset} {mark bytes : List UInt8}

theorem check_mark_append (s : Style) (hset : charset ∈ Charset.takingMark)
    (h : Charset.encode? (some charset) '\ufeff' = some mark) (bytes : List UInt8) :
    { s with charset := some charset }.check (mark ++ bytes) =
      s.checkTokens ((Decoder.ofCharset (some charset)).tokens bytes) := by
  have htaken : ∀ ts, preamble (some charset) (.bom :: ts) = ([], ts) := by
    intro ts
    simp only [Charset.takingMark, List.mem_cons, List.not_mem_nil, or_false] at hset
    rcases hset with rfl | rfl | rfl
    · rfl
    · rfl
    · rfl
  rw [check, decoder, Decoder.tokens_mark_append h, checkDecoded, htaken]
  exact checkTokens_charset s (some charset) _

theorem check_utf8Bom_without_mark (s : Style)
    (h : Charset.encode? (some .utf8Bom) '\ufeff' = some mark) (hbytes : ¬ mark <+: bytes) :
    { s with charset := some .utf8Bom }.check bytes =
      bomNotFound :: s.checkTokens ((Decoder.ofCharset (some .utf8Bom)).tokens bytes) := by
  have hhead : ((Decoder.ofCharset (some .utf8Bom)).tokens bytes).head? ≠ some .bom :=
    fun hbom => hbytes ((Decoder.head?_tokens_eq_bom_iff h).mp hbom)
  rw [check, decoder, checkDecoded, preamble_utf8Bom_of_unmarked hhead]
  exact congrArg (bomNotFound :: ·) (checkTokens_charset s (some .utf8Bom) _)

theorem check_without_mark (s : Style) (hset : charset ≠ .utf8Bom)
    (h : Charset.encode? (some charset) '\ufeff' = some mark) (hbytes : ¬ mark <+: bytes) :
    { s with charset := some charset }.check bytes =
      s.checkTokens ((Decoder.ofCharset (some charset)).tokens bytes) := by
  have hhead : ((Decoder.ofCharset (some charset)).tokens bytes).head? ≠ some .bom :=
    fun hbom => hbytes ((Decoder.head?_tokens_eq_bom_iff h).mp hbom)
  have hasked : some charset ≠ some .utf8Bom := fun heq => hset (Option.some.inj heq)
  rw [check, decoder, checkDecoded, preamble_of_unmarked hasked hhead]
  exact checkTokens_charset s (some charset) _

theorem check_utf8 (s : Style) (bytes : List UInt8) :
    { s with charset := some .utf8 }.check bytes = s.checkTokens (Utf8.decoder.tokens bytes) :=
  checkTokens_charset s (some .utf8) (Utf8.decoder.tokens bytes)

/-- Where only a mark may be in front of a file, it can be taken off or put there, unless the
file starts with a mark: then one of the two cannot be read. -/
theorem check_mark_append_eq_iff (s : Style) (hset : charset ∈ Charset.takingMark)
    (hasked : charset ≠ .utf8Bom) (h : Charset.encode? (some charset) '\ufeff' = some mark)
    (bytes : List UInt8) :
    { s with charset := some charset }.check (mark ++ bytes) =
        { s with charset := some charset }.check bytes ↔
      ¬ mark <+: bytes := by
  constructor
  · rintro heq ⟨rest, rfl⟩
    rw [check_mark_append s hset h, check_mark_append s hset h,
      Decoder.tokens_mark_append h] at heq
    exact checkTokens_bom_ne s _ heq
  · intro hbytes
    rw [check_mark_append s hset h, check_without_mark s hasked h hbytes]

/-- A file with a mark in front of it has the findings of the file. Where a mark is asked for
these are the findings of plain UTF-8, and a mark that is missing is one more, in front of them.
In UTF-16 no mark is missed, and a file that starts with a mark must not be given another. -/
theorem check_behind_mark (s : Style) (bytes : List UInt8) :
    { s with charset := some .utf8Bom }.check ([0xEF, 0xBB, 0xBF] ++ bytes) =
        { s with charset := some .utf8 }.check bytes ∧
      (¬ [0xEF, 0xBB, 0xBF] <+: bytes →
        { s with charset := some .utf8Bom }.check bytes =
          ⟨1, 0, 0, .bomNotFound, none⟩ :: { s with charset := some .utf8 }.check bytes) ∧
      ∀ charset mark, (charset, mark) ∈ Charset.optionalMarks →
        ({ s with charset := some charset }.check (mark ++ bytes) =
            { s with charset := some charset }.check bytes ↔
          ¬ mark <+: bytes) := by
  have hmark : Charset.encode? (some .utf8Bom) '\ufeff' = some [0xEF, 0xBB, 0xBF] := by decide
  refine ⟨?_, ?_, ?_⟩
  · rw [check_mark_append s (by decide) hmark, check_utf8]
    rfl
  · intro hbytes
    rw [check_utf8Bom_without_mark s hmark hbytes, check_utf8]
    rfl
  · have hmarks : ∀ p ∈ Charset.optionalMarks,
        p.1 ∈ Charset.takingMark ∧ p.1 ≠ .utf8Bom ∧
          Charset.encode? (some p.1) '\ufeff' = some p.2 := by
      decide
    intro charset mark hmem
    rcases hmarks _ hmem with ⟨hset, hasked, hmark⟩
    exact check_mark_append_eq_iff s hset hasked hmark bytes

/-- Two bytes of a mark that lacks its third, the mark of the other byte order, and a mark
behind a mark. -/
theorem check_behind_mark_of_broken_starts :
    let s : Style := { insertFinalNewline := some true }
    (¬ [0xEF, 0xBB, 0xBF] <+: ([0xEF, 0xBB] : List UInt8) ∧
        { s with charset := some .utf8Bom }.check [0xEF, 0xBB] =
          [⟨1, 0, 0, .bomNotFound, none⟩, ⟨1, 1, 2, .invalidCharacter, none⟩,
            ⟨1, 2, 2, .noFinalNewline, none⟩]) ∧
      (.utf16le, [0xFF, 0xFE]) ∈ Charset.optionalMarks ∧
      { s with charset := some .utf16le }.check ([0xFF, 0xFE] ++ [0xFE, 0xFF, 0x0A]) =
        { s with charset := some .utf16le }.check [0xFE, 0xFF, 0x0A] ∧
      { s with charset := some .utf16le }.check ([0xFF, 0xFE] ++ [0xFF, 0xFE]) ≠
        { s with charset := some .utf16le }.check [0xFF, 0xFE] := by
  intro s
  have hbroken : ¬ [0xEF, 0xBB, 0xBF] <+: ([0xEF, 0xBB] : List UInt8) := by decide
  have hlittle : (.utf16le, [0xFF, 0xFE]) ∈ Charset.optionalMarks := List.mem_cons_self
  rcases check_behind_mark s [0xEF, 0xBB] with ⟨-, hmissing, -⟩
  rcases check_behind_mark s [0xFE, 0xFF, 0x0A] with ⟨-, -, hswapped⟩
  rcases check_behind_mark s [0xFF, 0xFE] with ⟨-, -, hsecond⟩
  refine ⟨⟨hbroken, ?_⟩, hlittle, ?_, ?_⟩
  · rw [hmissing hbroken]
    decide +kernel
  · exact (hswapped _ _ hlittle).mpr (by decide)
  · intro heq
    exact (hsecond _ _ hlittle).mp heq (List.prefix_refl _)

end Style
end FileStyle
