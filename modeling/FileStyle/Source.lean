import FileStyle.Encoding

/-!
# Byte sources

A source delivers bytes in order, in pieces of its own choosing: a read may return
less than was asked for, but returns nothing only at the end. A source can also fail,
once it has delivered a certain number of bytes. Main statement: gathering a number of
bytes returns the first ones that are left, however the source cuts its pieces.
-/

namespace FileStyle

inductive ReadError where
  | sourceLost
  deriving DecidableEq, Repr

structure Source where
  bytes : List UInt8
  /-- The size of the piece that a read returns, by the number of the read and the
  number of bytes asked for. -/
  piece : Nat → Nat → Nat
  reads : Nat
  /-- The number of bytes after which the source fails, if it does. -/
  failsAfter : Option Nat

namespace Source

def ofBytes (bytes : List UInt8) : Source :=
  ⟨bytes, fun _ asked => asked, 0, none⟩

/-- The number of bytes that a read of at most `asked` bytes returns while bytes
remain: at least one, and never past the point of failure. -/
def granted (s : Source) (asked : Nat) : Nat :=
  let allowed :=
    match s.failsAfter with
    | none => asked
    | some left => min left asked
  max 1 (min allowed (s.piece s.reads asked))

def read (s : Source) (asked : Nat) : Except ReadError (List UInt8 × Source) :=
  if s.failsAfter = some 0 then
    .error .sourceLost
  else
    let got := s.bytes.take (s.granted asked)
    .ok (got,
      { s with
        bytes := s.bytes.drop (s.granted asked)
        reads := s.reads + 1
        failsAfter := s.failsAfter.map (· - got.length) })

theorem bytes_of_read {s s' : Source} {asked : Nat} {got : List UInt8}
    (h : s.read asked = .ok (got, s')) : s.bytes = got ++ s'.bytes := by
  unfold read at h
  split at h
  · simp at h
  · simp only [Except.ok.injEq, Prod.mk.injEq] at h
    obtain ⟨rfl, rfl⟩ := h
    simp

def gather (s : Source) (count : Nat) : Except ReadError (List UInt8 × Source) :=
  if count = 0 then
    .ok ([], s)
  else
    match s.read count with
    | .error e => .error e
    | .ok (got, s') =>
        if got.length = 0 then
          .ok ([], s')
        else
          match s'.gather (count - got.length) with
          | .error e => .error e
          | .ok (more, s'') => .ok (got ++ more, s'')
termination_by count

theorem bytes_of_gather {s s' : Source} {count : Nat} {got : List UInt8}
    (h : s.gather count = .ok (got, s')) : s.bytes = got ++ s'.bytes := by
  induction count using Nat.strongRecOn generalizing s s' got with
  | _ count ih =>
      rw [gather] at h
      split at h
      · simp only [Except.ok.injEq, Prod.mk.injEq] at h
        simp [← h.1, ← h.2]
      · next hcount =>
          split at h
          · simp at h
          · next piece s₁ hread =>
              split at h
              · next hempty =>
                  simp only [Except.ok.injEq, Prod.mk.injEq] at h
                  obtain ⟨rfl, rfl⟩ := h
                  have hnil := List.eq_nil_of_length_eq_zero hempty
                  simpa [hnil] using bytes_of_read hread
              · next hsome =>
                  split at h
                  · simp at h
                  · next more s₂ hmore =>
                      simp only [Except.ok.injEq, Prod.mk.injEq] at h
                      obtain ⟨rfl, rfl⟩ := h
                      rw [bytes_of_read hread, ih _ (by omega) hmore, List.append_assoc]

end Source

namespace Decoder

/-!
## Decoding from a source
-/

/-- The first token of a source and the source after it. -/
def pull (d : Decoder) (s : Source) : Except ReadError (Option (Token × Source)) :=
  match s.gather d.unit with
  | .error e => .error e
  | .ok ([], _) => .ok none
  | .ok (unit, s₁) =>
      match d.lead unit with
      | .token t => .ok (some (t, s₁))
      | .more count finish =>
          match s₁.gather count with
          | .error e => .error e
          | .ok (rest, s₂) => .ok (some (finish rest, s₂))

theorem length_lt_of_pull {d : Decoder} {s s' : Source} {t : Token}
    (h : d.pull s = .ok (some (t, s'))) : s'.bytes.length < s.bytes.length := by
  unfold pull at h
  split at h
  · simp at h
  · simp at h
  · next unit s₁ hne hunit =>
      have hbytes := Source.bytes_of_gather hunit
      have hlen := congrArg List.length hbytes
      have hpos : unit.length ≠ 0 := by
        intro hzero
        exact hne (List.eq_nil_of_length_eq_zero hzero)
      simp only [List.length_append] at hlen
      split at h
      · simp only [Except.ok.injEq, Option.some.injEq, Prod.mk.injEq] at h
        obtain ⟨-, rfl⟩ := h
        omega
      · split at h
        · simp at h
        · next rest s₂ hrest =>
            simp only [Except.ok.injEq, Option.some.injEq, Prod.mk.injEq] at h
            obtain ⟨-, rfl⟩ := h
            have hlen' := congrArg List.length (Source.bytes_of_gather hrest)
            simp only [List.length_append] at hlen'
            omega

/-- The tokens of a source after those already seen, which are given newest first, and
how it ended. -/
def drainOnto (d : Decoder) (seen : List Token) (s : Source) :
    List Token × Except ReadError Source :=
  match _h : d.pull s with
  | .error e => (seen.reverse, .error e)
  | .ok none => (seen.reverse, .ok s)
  | .ok (some (t, s')) => d.drainOnto (t :: seen) s'
termination_by s.bytes.length
decreasing_by exact length_lt_of_pull _h

def drain (d : Decoder) (s : Source) : List Token × Except ReadError Source :=
  d.drainOnto [] s

end Decoder
end FileStyle
