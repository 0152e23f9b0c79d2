import FileStyle.Proofs.CharacterTokens
import FileStyle.Proofs.LineCheck

/-!
# Transcoding a file

The findings of a check do not depend on the bytes of its valid and invalid tokens, nor
on the character set once the preamble is read. Main statement: a text has the same
findings in every encoding.
-/

namespace FileStyle

def Token.bare : Token → Token
  | .valid _ => .valid []
  | .invalid _ => .invalid []
  | t => t

namespace Cursor

open Token

/-! ## What a check does not look at -/

theorem feed_bare (s : Style) (c : Cursor) (t : Token) :
    c.feed s t.bare = ({ (c.feed s t).1 with last := some t.bare }, (c.feed s t).2) := by
  cases t with
  | bom => rfl
  | newline kind => rfl
  | indent kind => rfl
  | valid bytes => rfl
  | invalid bytes => rfl

theorem onContent_last (s : Style) (c : Cursor) (last : Option Token) (isValid : Bool) :
    ({ c with last := last } : Cursor).onContent s isValid =
      ({ (c.onContent s isValid).1 with last := last }, (c.onContent s isValid).2) := by
  rcases c with ⟨line, col, phase, pending, before⟩
  cases phase with
  | content => rfl
  | trailing length => rfl
  | indent length wrong =>
      cases pending with
      | none => rfl
      | some kind => rfl

theorem feed_last (s : Style) (c : Cursor) (last : Option Token) (t : Token) :
    ({ c with last := last } : Cursor).feed s t = c.feed s t := by
  cases t with
  | newline kind =>
      rcases c with ⟨line, col, phase, pending, before⟩
      cases pending with
      | none => rfl
      | some first => cases first <;> cases kind <;> rfl
  | indent kind =>
      rcases c with ⟨line, col, phase, pending, before⟩
      cases phase with
      | content => rfl
      | trailing length => rfl
      | indent length wrong => cases length <;> cases pending <;> rfl
  | bom => simp [feed, onContent_last]
  | valid bytes => simp [feed, onContent_last]
  | invalid bytes => simp [feed, onContent_last]

theorem isNewline_bare (t : Token) : t.bare.isNewline = t.isNewline := by
  cases t <;> rfl

theorem report_last (s : Style) (c : Cursor) {t u : Token}
    (h : t.isNewline = u.isNewline) (ts : List Token) :
    report s { c with last := some t } ts = report s { c with last := some u } ts := by
  cases ts with
  | nil => simp [report, finish, h]
  | cons first ts =>
      rw [report_cons, report_cons, feed_last s c (some t), feed_last s c (some u)]

theorem report_bare (s : Style) (c : Cursor) (ts : List Token) :
    report s c (ts.map bare) = report s c ts := by
  induction ts generalizing c with
  | nil => rfl
  | cons t ts ih =>
      have hlast : { (c.feed s t).1 with last := some t } = (c.feed s t).1 := rfl
      have hreport := report_last s (c.feed s t).1 (isNewline_bare t) ts
      rw [hlast] at hreport
      rw [List.map_cons, report_cons, report_cons, feed_bare, ih, hreport]

theorem report_charset (s : Style) (charset : Option Charset) (c : Cursor)
    (ts : List Token) : report { s with charset := charset } c ts = report s c ts := by
  induction ts generalizing c with
  | nil => rfl
  | cons t ts ih =>
      have hfeed : c.feed { s with charset := charset } t = c.feed s t := rfl
      rw [report_cons, report_cons, hfeed, ih]

end Cursor

namespace Charset

def encodeText (charset : Option Charset) (text : List Char) : List UInt8 :=
  text.flatMap fun c => (encode? charset c).getD []

def textTokens (charset : Option Charset) (text : List Char) : List Token :=
  text.map fun c => Token.ofChar c ((encode? charset c).getD [])

/-- Character sets that have all characters and allow a byte-order mark. -/
def universal : List Charset := [utf8, utf8Bom, utf16be, utf16le]

theorem tokens_encodeText_of_universal {charset : Charset} (h : charset ∈ universal)
    (text : List Char) :
    (Decoder.ofCharset (some charset)).tokens (encodeText (some charset) text) =
      textTokens (some charset) text := by
  have hutf8 : Utf8.decoder.tokens (text.flatMap fun c => String.utf8EncodeChar c) =
      text.map fun c => Token.ofChar c (String.utf8EncodeChar c) := by
    apply Decoder.tokens_flatMap
    intro c _ rest
    rw [← Utf8.encode_eq_utf8EncodeChar]
    exact Utf8.next?_char c rest
  cases charset with
  | latin1 => simp [universal] at h
  | utf8 => exact hutf8
  | utf8Bom => exact hutf8
  | utf16be => exact Decoder.tokens_flatMap fun c _ rest => Utf16.next?_char .bigEndian c rest
  | utf16le =>
      exact Decoder.tokens_flatMap fun c _ rest => Utf16.next?_char .littleEndian c rest

theorem tokens_encodeText_latin1 {text : List Char}
    (h : ∀ c ∈ text, c.toNat < 0x7F ∨ 0xA1 ≤ c.toNat ∧ c.toNat ≤ 0xFF) :
    (Decoder.ofCharset (some .latin1)).tokens (encodeText (some .latin1) text) =
      textTokens (some .latin1) text := by
  apply Decoder.tokens_flatMap
  intro c hc rest
  have hrange := h c hc
  have hbyte : c.toNat < 0x100 := by omega
  have hencode : encode? (some .latin1) c = some [UInt8.ofNat c.toNat] := if_pos hbyte
  rw [hencode]
  exact SingleByte.next?_char hbyte (SingleByte.isLatin1_of_char hrange) rest

theorem tokens_encodeText_unchecked {text : List Char} (h : ∀ c ∈ text, c.toNat < 0x80) :
    (Decoder.ofCharset none).tokens (encodeText none text) = textTokens none text := by
  apply Decoder.tokens_flatMap
  intro c hc rest
  have hascii := h c hc
  have hencode : encode? none c = some [UInt8.ofNat c.toNat] := if_pos hascii
  rw [hencode]
  exact SingleByte.next?_char (by omega) rfl rest

end Charset

/-!
## The findings of a text
-/

theorem Token.bare_ofChar (c : Char) (xs ys : List UInt8) :
    (ofChar c xs).bare = (ofChar c ys).bare := by
  unfold ofChar
  split
  · rfl
  split
  · rfl
  split
  · rfl
  split
  · rfl
  split
  · rfl
  · rfl

namespace Style

open Charset

theorem checkTokens_textTokens (s : Style) (a b : Option Charset) (text : List Char) :
    { s with charset := a }.checkTokens (textTokens a text) =
      { s with charset := b }.checkTokens (textTokens b text) := by
  have hbare : (textTokens a text).map Token.bare = (textTokens b text).map Token.bare := by
    simp only [textTokens, List.map_map]
    apply List.map_congr_left
    intro c _
    exact Token.bare_ofChar c _ _
  calc
    _ = Cursor.report s .start (textTokens a text) := Cursor.report_charset s a .start _
    _ = Cursor.report s .start (textTokens b text) := by
      rw [← Cursor.report_bare, hbare, Cursor.report_bare]
    _ = _ := (Cursor.report_charset s b .start _).symm

theorem preamble_of_unmarked {charset : Option Charset} (h : charset ≠ some .utf8Bom)
    {ts : List Token} (hts : ts.head? ≠ some .bom) : preamble charset ts = ([], ts) := by
  unfold preamble
  split
  · exact absurd rfl h
  · exact absurd rfl h
  · exact absurd rfl hts
  · exact absurd rfl hts
  · rfl

theorem head?_textTokens {charset : Option Charset} {text : List Char}
    (h : text.head? ≠ some '\ufeff') : (textTokens charset text).head? ≠ some .bom := by
  cases text with
  | nil => simp [textTokens]
  | cons c text =>
      have hc : c ≠ '\ufeff' := by
        rintro rfl
        exact h rfl
      intro hbom
      simp only [textTokens, List.map_cons, List.head?_cons, Option.some.injEq,
        Token.ofChar, if_neg hc] at hbom
      split at hbom
      · cases hbom
      split at hbom
      · cases hbom
      split at hbom
      · cases hbom
      split at hbom
      · cases hbom
      · cases hbom

theorem check_of_unmarked (s : Style) {charset : Charset} (hset : charset ∈ universal)
    (hmark : charset ≠ .utf8Bom) {text : List Char} (h : text.head? ≠ some '\ufeff') :
    { s with charset := some charset }.check (encodeText (some charset) text) =
      { s with charset := some charset }.checkTokens (textTokens (some charset) text) := by
  have hnone : some charset ≠ some .utf8Bom := by simpa using hmark
  rw [check, decoder, tokens_encodeText_of_universal hset, checkDecoded,
    preamble_of_unmarked hnone (head?_textTokens h)]
  rfl

theorem check_of_marked (s : Style) {charset : Charset} (hset : charset ∈ universal)
    (hmark : charset ≠ .utf8) (text : List Char) :
    { s with charset := some charset }.check
        (encodeText (some charset) ('\ufeff' :: text)) =
      { s with charset := some charset }.checkTokens (textTokens (some charset) text) := by
  have hbom : textTokens (some charset) ('\ufeff' :: text) =
      .bom :: textTokens (some charset) text := rfl
  rw [check, decoder, tokens_encodeText_of_universal hset, hbom]
  cases charset with
  | latin1 => simp [universal] at hset
  | utf8 => exact absurd rfl hmark
  | utf8Bom => rfl
  | utf16be => rfl
  | utf16le => rfl

/-- Every character set reads a text that it has as the same tokens, up to the bytes of
the characters, so the findings of a text are the same in all encodings that treat a
byte-order mark alike. -/
theorem check_encodeText (s : Style) (text : List Char) :
    (∀ charset ∈ universal,
        (Decoder.ofCharset (some charset)).tokens (encodeText (some charset) text) =
          textTokens (some charset) text) ∧
      (text.head? ≠ some '\ufeff' →
        ∀ a ∈ [utf8, utf16be, utf16le], ∀ b ∈ [utf8, utf16be, utf16le],
          { s with charset := some a }.check (encodeText (some a) text) =
            { s with charset := some b }.check (encodeText (some b) text)) ∧
      (∀ a ∈ [utf8Bom, utf16be, utf16le], ∀ b ∈ [utf8Bom, utf16be, utf16le],
        { s with charset := some a }.check (encodeText (some a) ('\ufeff' :: text)) =
          { s with charset := some b }.check (encodeText (some b) ('\ufeff' :: text))) ∧
      ((∀ c ∈ text, c.toNat < 0x7F ∨ 0xA1 ≤ c.toNat ∧ c.toNat ≤ 0xFF) →
        (Decoder.ofCharset (some latin1)).tokens (encodeText (some latin1) text) =
          textTokens (some latin1) text) ∧
      ((∀ c ∈ text, c.toNat < 0x80) →
        (Decoder.ofCharset none).tokens (encodeText none text) = textTokens none text) := by
  have hplain : ∀ a ∈ [utf8, utf16be, utf16le], a ∈ universal ∧ a ≠ utf8Bom := by
    decide
  have hmarked : ∀ a ∈ [utf8Bom, utf16be, utf16le], a ∈ universal ∧ a ≠ utf8 := by
    decide
  refine ⟨?_, ?_, ?_, ?_, ?_⟩
  · intro charset h
    exact tokens_encodeText_of_universal h text
  · intro hhead a ha b hb
    rcases hplain a ha with ⟨hseta, hbeforea⟩
    rcases hplain b hb with ⟨hsetb, hbeforeb⟩
    rw [check_of_unmarked s hseta hbeforea hhead, check_of_unmarked s hsetb hbeforeb hhead]
    exact checkTokens_textTokens s (some a) (some b) text
  · intro a ha b hb
    rcases hmarked a ha with ⟨hseta, hbeforea⟩
    rcases hmarked b hb with ⟨hsetb, hbeforeb⟩
    rw [check_of_marked s hseta hbeforea, check_of_marked s hsetb hbeforeb]
    exact checkTokens_textTokens s (some a) (some b) text
  · intro h
    exact tokens_encodeText_latin1 h
  · intro h
    exact tokens_encodeText_unchecked h

/-- In UTF-16 the first characters have the bytes of two line feeds, of two spaces and of
a swapped mark. -/
theorem check_encodeText_of_units_like_spaces :
    (['\u0a0a', '\u2020', '\ufffe', ' ', '\n'].head? ≠ some '\ufeff' ∧
        ({ charset := some .utf16le, trimTrailingWhitespace := some true } : Style).check
            (encodeText (some .utf16le) ['\u0a0a', '\u2020', '\ufffe', ' ', '\n']) =
          ({ charset := some .utf8, trimTrailingWhitespace := some true } : Style).check
            (encodeText (some .utf8) ['\u0a0a', '\u2020', '\ufffe', ' ', '\n'])) ∧
      (utf16le ∈ universal ∧
        (Decoder.ofCharset (some utf16le)).tokens
            (encodeText (some utf16le) ['\u2020', '\ufffe', ' ']) =
          [.valid [0x20, 0x20], .valid [0xFE, 0xFF], .indent .space]) ∧
      ((∀ c ∈ ['\t', 'é'], c.toNat < 0x7F ∨ 0xA1 ≤ c.toNat ∧ c.toNat ≤ 0xFF) ∧
        (Decoder.ofCharset (some latin1)).tokens (encodeText (some latin1) ['\t', 'é']) =
          [.indent .tab, .valid [0xE9]]) ∧
      (∀ c ∈ ['a', '\r'], c.toNat < 0x80) ∧
        (Decoder.ofCharset none).tokens (encodeText none ['a', '\r']) =
          [.valid [0x61], .newline .cr] := by
  have hhead : ['\u0a0a', '\u2020', '\ufffe', ' ', '\n'].head? ≠ some '\ufeff' := by decide
  have hset : utf16le ∈ universal := by decide
  have hlatin1 : ∀ c ∈ ['\t', 'é'], c.toNat < 0x7F ∨ 0xA1 ≤ c.toNat ∧ c.toNat ≤ 0xFF := by
    simp
  have hascii : ∀ c ∈ ['a', '\r'], c.toNat < 0x80 := by simp
  obtain ⟨-, hplain, -⟩ := check_encodeText { trimTrailingWhitespace := some true }
    ['\u0a0a', '\u2020', '\ufffe', ' ', '\n']
  rcases check_encodeText { } ['\u2020', '\ufffe', ' '] with ⟨huniversal, -⟩
  rcases check_encodeText { } ['\t', 'é'] with ⟨-, -, -, hbytes, -⟩
  rcases check_encodeText { } ['a', '\r'] with ⟨-, -, -, -, hunchecked⟩
  refine ⟨⟨hhead, ?_⟩, ⟨hset, ?_⟩, ⟨hlatin1, ?_⟩, hascii, ?_⟩
  · exact hplain hhead utf16le (by decide) utf8 (by decide)
  · rw [huniversal utf16le hset]
    decide
  · rw [hbytes hlatin1]
    decide
  · rw [hunchecked hascii]
    decide

end Style
end FileStyle
