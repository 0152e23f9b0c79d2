import FileStyle.Source

/-!
# What a source delivers

A source hands out its bytes in pieces and then ends or fails. This module tells a
source by the bytes that it still delivers and by which of the two comes after them;
how it cuts its pieces does not matter from there on. Main statements: a source that
ends is decoded like its bytes, and one that fails loses no more of them than the last
token asked for.
-/

namespace FileStyle
namespace Source

/-- The source delivers the bytes, however it cuts them, and then ends or fails. -/
inductive Delivers : Source → List UInt8 → Bool → Prop where
  | ends {s : Source} {bytes : List UInt8} (whole : s.bytes = bytes)
      (steady : s.failsAfter = none) : Delivers s bytes false
  | fails {s : Source} {bytes more : List UInt8} (split : s.bytes = bytes ++ more)
      (lost : s.failsAfter = some bytes.length) : Delivers s bytes true

/-! ## One read -/

def afterRead (s : Source) (asked : Nat) : Source where
  bytes := s.bytes.drop (s.granted asked)
  piece := s.piece
  reads := s.reads + 1
  failsAfter := s.failsAfter.map (· - (s.bytes.take (s.granted asked)).length)

theorem read_eq {s : Source} (h : s.failsAfter ≠ some 0) (asked : Nat) :
    s.read asked = .ok (s.bytes.take (s.granted asked), s.afterRead asked) :=
  if_neg h

theorem granted_pos (s : Source) (asked : Nat) : 0 < s.granted asked := by
  simp only [granted]
  omega

theorem granted_le_of_ends {s : Source} (steady : s.failsAfter = none) {asked : Nat}
    (hasked : 0 < asked) : s.granted asked ≤ asked := by
  simp only [granted, steady]
  omega

theorem granted_le_of_fails {s : Source} {left : Nat} (lost : s.failsAfter = some left)
    (hleft : 0 < left) {asked : Nat} (hasked : 0 < asked) :
    s.granted asked ≤ asked ∧ s.granted asked ≤ left := by
  simp only [granted, lost]
  omega

theorem granted_of_delivers {s : Source} {bytes : List UInt8} {lossy : Bool}
    (h : s.Delivers bytes lossy) (hsome : lossy = true → bytes ≠ []) {asked : Nat}
    (hasked : 0 < asked) :
    s.granted asked ≤ asked ∧ s.failsAfter ≠ some 0 ∧
      s.bytes.take (s.granted asked) = bytes.take (s.granted asked) ∧
      (s.afterRead asked).Delivers (bytes.drop (s.granted asked)) lossy := by
  cases h with
  | ends whole steady =>
      refine ⟨granted_le_of_ends steady hasked, ?_, ?_, ?_⟩
      · rw [steady]
        simp
      · rw [whole]
      · apply Delivers.ends
        · rw [afterRead, whole]
        · rw [afterRead, steady]
          rfl
  | @fails more split lost =>
      have hlength : 0 < bytes.length := List.length_pos_iff.mpr (hsome rfl)
      rcases granted_le_of_fails lost hlength hasked with ⟨hle, hleft⟩
      have hgot : s.bytes.take (s.granted asked) = bytes.take (s.granted asked) := by
        rw [split, List.take_append_of_le_length hleft]
      refine ⟨hle, ?_, hgot, ?_⟩
      · rw [lost]
        simp only [ne_eq, Option.some.injEq]
        omega
      · have hmore : (s.afterRead asked).bytes = bytes.drop (s.granted asked) ++ more := by
          rw [← List.drop_append_of_le_length hleft, ← split]
          rfl
        apply Delivers.fails hmore
        simp [afterRead, lost, hgot, hleft]

theorem read_of_delivers {s : Source} {bytes : List UInt8} {lossy : Bool}
    (h : s.Delivers bytes lossy) (hsome : lossy = true → bytes ≠ []) {asked : Nat}
    (hasked : 0 < asked) :
    ∃ got rest s', bytes = got ++ rest ∧ got.length ≤ asked ∧ (got = [] → bytes = []) ∧
      s.read asked = .ok (got, s') ∧ s'.Delivers rest lossy := by
  rcases granted_of_delivers h hsome hasked with ⟨hle, hread, hgot, hnext⟩
  have hpos := s.granted_pos asked
  refine ⟨bytes.take (s.granted asked), bytes.drop (s.granted asked), s.afterRead asked,
    (List.take_append_drop _ _).symm, ?_, ?_, ?_, hnext⟩
  · rw [List.length_take]
    omega
  · intro hnil
    rcases List.take_eq_nil_iff.mp hnil with hzero | hbytes
    · omega
    · exact hbytes
  · rw [read_eq hread, hgot]

theorem read_of_lost {s : Source} (h : s.Delivers [] true) (asked : Nat) :
    s.read asked = .error .sourceLost := by
  cases h with
  | fails split lost => exact if_pos lost

/-! ## Gathering -/

theorem gather_of_delivers {s : Source} {bytes : List UInt8} {lossy : Bool}
    (h : s.Delivers bytes lossy) {count : Nat}
    (henough : lossy = true → count ≤ bytes.length) :
    ∃ s', s.gather count = .ok (bytes.take count, s') ∧
      s'.Delivers (bytes.drop count) lossy := by
  -- Each read returns at least one byte, so fewer are left to gather after it.
  induction count using Nat.strongRecOn generalizing s bytes with
  | _ count ih =>
      rw [gather]
      split
      · next hzero =>
          rw [hzero]
          exact ⟨s, rfl, h⟩
      · next hcount =>
          have hsome : lossy = true → bytes ≠ [] := by
            intro hlossy hnil
            have hle := henough hlossy
            rw [hnil, List.length_nil] at hle
            omega
          obtain ⟨got, rest, s₁, rfl, hgot, hempty, hread, hrest⟩ :=
            read_of_delivers h hsome (Nat.pos_of_ne_zero hcount)
          simp only [hread]
          split
          · next hzero =>
              have hnil := hempty (List.eq_nil_of_length_eq_zero hzero)
              rcases List.append_eq_nil_iff.mp hnil with ⟨rfl, rfl⟩
              exact ⟨s₁, by simp, by simpa using hrest⟩
          · next hsome =>
              have hmore : lossy = true → count - got.length ≤ rest.length := by
                intro hlossy
                have hle := henough hlossy
                rw [List.length_append] at hle
                omega
              rcases ih (count - got.length) (by omega) hrest hmore with
                ⟨s₂, hgather, hleft⟩
              rw [hgather]
              refine ⟨s₂, ?_, ?_⟩
              · rw [List.take_append, List.take_of_length_le hgot]
              · rw [List.drop_append, List.drop_eq_nil_of_le hgot]
                exact hleft

theorem gather_of_short {s : Source} {bytes : List UInt8} (h : s.Delivers bytes true)
    {count : Nat} (hshort : bytes.length < count) :
    s.gather count = .error .sourceLost := by
  induction count using Nat.strongRecOn generalizing s bytes with
  | _ count ih =>
      have hcount : count ≠ 0 := Nat.ne_zero_of_lt hshort
      rw [gather, if_neg hcount]
      by_cases hnil : bytes = []
      · subst hnil
        rw [read_of_lost h]
      · obtain ⟨got, rest, s₁, rfl, hgot, hempty, hread, hrest⟩ :=
          read_of_delivers h (fun _ => hnil) (Nat.zero_lt_of_lt hshort)
        have hsome : got.length ≠ 0 := by
          intro hzero
          exact hnil (hempty (List.eq_nil_of_length_eq_zero hzero))
        rw [List.length_append] at hshort
        have hmore := ih (count - got.length) (by omega) hrest (by omega)
        simp only [hread, if_neg hsome, hmore]

end Source

namespace Decoder

open Source

/-!
## One token
-/

def asks (d : Decoder) (bytes : List UInt8) : Nat :=
  match d.lead (bytes.take d.unit) with
  | .token _ => d.unit
  | .more count _ => d.unit + count

theorem asks_of_token {d : Decoder} {bytes : List UInt8} {t : Token}
    (h : d.lead (bytes.take d.unit) = .token t) : d.asks bytes = d.unit := by
  rw [asks, h]

theorem asks_of_more {d : Decoder} {bytes : List UInt8} {count : Nat}
    {finish : List UInt8 → Token} (h : d.lead (bytes.take d.unit) = .more count finish) :
    d.asks bytes = d.unit + count := by
  rw [asks, h]

theorem unit_le_asks (d : Decoder) (bytes : List UInt8) : d.unit ≤ d.asks bytes := by
  unfold asks
  split
  · exact Nat.le_refl _
  · exact Nat.le_add_right _ _

theorem exists_next?_of_ne_nil (d : Decoder) {bytes : List UInt8} (h : bytes ≠ []) :
    ∃ t rest, d.next? bytes = some (t, rest) := by
  cases bytes with
  | nil => exact absurd rfl h
  | cons b bs =>
      simp only [next?]
      split
      · exact ⟨_, _, rfl⟩
      · exact ⟨_, _, rfl⟩

theorem next?_append {d : Decoder} {bytes rest : List UInt8} {t : Token}
    (h : d.next? bytes = some (t, rest)) (henough : d.asks bytes ≤ bytes.length)
    (more : List UInt8) : d.next? (bytes ++ more) = some (t, rest ++ more) := by
  rcases next?_cases h with ⟨hne, hcases⟩
  have hunit := d.unit_le_asks bytes
  have htake : (bytes ++ more).take d.unit = bytes.take d.unit :=
    List.take_append_of_le_length (by omega)
  have hdrop : (bytes ++ more).drop d.unit = bytes.drop d.unit ++ more :=
    List.drop_append_of_le_length (by omega)
  obtain ⟨b, bs, hbytes⟩ := List.exists_cons_of_ne_nil
    (List.append_ne_nil_of_left_ne_nil hne more)
  rw [hbytes] at htake hdrop ⊢
  rcases hcases with ⟨hlead, rfl⟩ | ⟨count, finish, hlead, rfl, rfl⟩
  · simp only [next?, htake, hlead, hdrop]
  · rw [asks_of_more hlead] at henough
    have hcount : count ≤ (bytes.drop d.unit).length := by
      rw [List.length_drop]
      omega
    simp only [next?, htake, hlead, hdrop]
    rw [List.take_append_of_le_length hcount, List.drop_append_of_le_length hcount]

theorem pull_of_token {d : Decoder} {s s₁ : Source} {unit : List UInt8} {t : Token}
    (hunit : s.gather d.unit = .ok (unit, s₁)) (hne : unit ≠ [])
    (hlead : d.lead unit = .token t) : d.pull s = .ok (some (t, s₁)) := by
  cases unit with
  | nil => exact absurd rfl hne
  | cons b bs => simp only [pull, hunit, hlead]

theorem pull_of_more {d : Decoder} {s s₁ : Source} {unit : List UInt8} {count : Nat}
    {finish : List UInt8 → Token} (hunit : s.gather d.unit = .ok (unit, s₁))
    (hne : unit ≠ []) (hlead : d.lead unit = .more count finish) :
    d.pull s = (s₁.gather count).map fun p => some (finish p.1, p.2) := by
  cases unit with
  | nil => exact absurd rfl hne
  | cons b bs =>
      cases hrest : s₁.gather count with
      | error e => simp only [pull, hunit, hlead, hrest, Except.map]
      | ok p =>
          rcases p with ⟨rest, s₂⟩
          simp only [pull, hunit, hlead, hrest, Except.map]

theorem take_unit_ne_nil (d : Decoder) {bytes : List UInt8} (h : bytes ≠ []) :
    bytes.take d.unit ≠ [] := by
  intro hnil
  have hpos := d.unit_pos
  rcases List.take_eq_nil_iff.mp hnil with hzero | hbytes
  · omega
  · exact h hbytes

theorem pull_of_next? {d : Decoder} {s : Source} {bytes rest : List UInt8} {lossy : Bool}
    {t : Token} (h : s.Delivers bytes lossy)
    (henough : lossy = true → d.asks bytes ≤ bytes.length)
    (hnext : d.next? bytes = some (t, rest)) :
    ∃ s', d.pull s = .ok (some (t, s')) ∧ s'.Delivers rest lossy := by
  rcases next?_cases hnext with ⟨hne, hcases⟩
  have hasks := d.unit_le_asks bytes
  have hfirst := d.take_unit_ne_nil hne
  have hunit : lossy = true → d.unit ≤ bytes.length := by
    intro hlossy
    exact Nat.le_trans hasks (henough hlossy)
  rcases gather_of_delivers h hunit with ⟨s₁, hgather, hrest⟩
  rcases hcases with ⟨hlead, rfl⟩ | ⟨count, finish, hlead, rfl, rfl⟩
  · exact ⟨s₁, pull_of_token hgather hfirst hlead, hrest⟩
  · have hcount : lossy = true → count ≤ (bytes.drop d.unit).length := by
      intro hlossy
      have hle := henough hlossy
      rw [asks_of_more hlead] at hle
      rw [List.length_drop]
      omega
    rcases gather_of_delivers hrest hcount with ⟨s₂, hmore, hleft⟩
    refine ⟨s₂, ?_, hleft⟩
    rw [pull_of_more hgather hfirst hlead, hmore]
    rfl

theorem pull_of_ends {d : Decoder} {s : Source} (h : s.Delivers [] false) :
    d.pull s = .ok none := by
  have hunit : false = true → d.unit ≤ ([] : List UInt8).length := by simp
  rcases gather_of_delivers h hunit with ⟨s', hgather, -⟩
  rw [List.take_nil] at hgather
  rw [pull, hgather]

theorem pull_of_short {d : Decoder} {s : Source} {bytes : List UInt8}
    (h : s.Delivers bytes true) (hshort : bytes.length < d.asks bytes) :
    d.pull s = .error .sourceLost := by
  by_cases hunit : d.unit ≤ bytes.length
  · rcases gather_of_delivers h (fun _ => hunit) with ⟨s₁, hgather, hrest⟩
    have hpos := d.unit_pos
    have hne : bytes ≠ [] := by
      rintro rfl
      rw [List.length_nil] at hunit
      omega
    have hfirst := d.take_unit_ne_nil hne
    cases hlead : d.lead (bytes.take d.unit) with
    | token t =>
        rw [asks_of_token hlead] at hshort
        omega
    | more count finish =>
        rw [asks_of_more hlead] at hshort
        have hcount : (bytes.drop d.unit).length < count := by
          rw [List.length_drop]
          omega
        rw [pull_of_more hgather hfirst hlead, gather_of_short hrest hcount]
        rfl
  · have hgather := gather_of_short h (Nat.lt_of_not_le hunit)
    rw [pull, hgather]

/-!
## All tokens
-/

theorem drainOnto_eq (d : Decoder) (seen : List Token) (s : Source) :
    d.drainOnto seen s = (seen.reverse ++ (d.drain s).1, (d.drain s).2) := by
  induction s using (measure fun s : Source => s.bytes.length).wf.induction
    generalizing seen with
  | _ s ih =>
      unfold drain
      rw [drainOnto, drainOnto]
      split
      · simp
      · simp
      · next t s' hpull =>
          have hlt := length_lt_of_pull hpull
          rw [ih s' hlt (t :: seen), ih s' hlt [t]]
          simp

theorem drain_eq (d : Decoder) (s : Source) :
    d.drain s =
      match d.pull s with
      | .error e => ([], .error e)
      | .ok none => ([], .ok s)
      | .ok (some (t, s')) => (t :: (d.drain s').1, (d.drain s').2) := by
  unfold drain
  rw [drainOnto]
  split
  · next e hpull => simp [hpull]
  · next hpull => simp [hpull]
  · next t s' hpull =>
      rw [hpull, drainOnto_eq]
      rfl

theorem drain_of_token {d : Decoder} {s s' : Source} {t : Token}
    (h : d.pull s = .ok (some (t, s'))) :
    d.drain s = (t :: (d.drain s').1, (d.drain s').2) := by
  rw [drain_eq, h]

theorem drain_of_end {d : Decoder} {s : Source} (h : d.pull s = .ok none) :
    d.drain s = ([], .ok s) := by
  rw [drain_eq, h]

theorem drain_of_error {d : Decoder} {s : Source} {e : ReadError}
    (h : d.pull s = .error e) : d.drain s = ([], .error e) := by
  rw [drain_eq, h]

theorem drain_of_ends (d : Decoder) {s : Source} {bytes : List UInt8}
    (h : s.Delivers bytes false) :
    ∃ s', d.drain s = (d.tokens bytes, .ok s') ∧ s'.Delivers [] false := by
  induction bytes using (measure List.length).wf.induction generalizing s with
  | _ bytes ih =>
      by_cases hne : bytes = []
      · subst hne
        refine ⟨s, ?_, h⟩
        rw [drain_of_end (pull_of_ends h), tokens_nil]
      · rcases d.exists_next?_of_ne_nil hne with ⟨t, rest, hnext⟩
        rcases pull_of_next? h (by simp) hnext with ⟨s₁, hpull, hrest⟩
        rcases ih rest (length_lt_of_next? hnext) hrest with ⟨s', hdrain, hleft⟩
        refine ⟨s', ?_, hleft⟩
        rw [drain_of_token hpull, hdrain, tokens_of_next? hnext]

/-- A source that fails gives the tokens whose bytes it delivered before; what is left
is less than the next token asks for. -/
theorem drain_of_fails (d : Decoder) {s : Source} {bytes : List UInt8}
    (h : s.Delivers bytes true) :
    ∃ ts rest, d.drain s = (ts, .error .sourceLost) ∧ rest.length < d.asks rest ∧
      ∀ more, d.tokens (bytes ++ more) = ts ++ d.tokens (rest ++ more) := by
  -- The tokens are those before the first one that asks for more than is delivered.
  induction bytes using (measure List.length).wf.induction generalizing s with
  | _ bytes ih =>
      by_cases hshort : bytes.length < d.asks bytes
      · refine ⟨[], bytes, ?_, hshort, ?_⟩
        · exact drain_of_error (pull_of_short h hshort)
        · intro more
          rfl
      · have henough : d.asks bytes ≤ bytes.length := Nat.le_of_not_lt hshort
        have hpos := d.unit_pos
        have hunit := d.unit_le_asks bytes
        have hne : bytes ≠ [] := by
          rintro rfl
          rw [List.length_nil] at henough
          omega
        rcases d.exists_next?_of_ne_nil hne with ⟨t, next, hnext⟩
        rcases pull_of_next? h (fun _ => henough) hnext with ⟨s₁, hpull, hrest⟩
        rcases ih next (length_lt_of_next? hnext) hrest with
          ⟨ts, rest, hdrain, hleft, htokens⟩
        refine ⟨t :: ts, rest, ?_, hleft, ?_⟩
        · rw [drain_of_token hpull, hdrain]
        · intro more
          rw [tokens_of_next? (next?_append hnext henough more), htokens, List.cons_append]

end Decoder
end FileStyle
