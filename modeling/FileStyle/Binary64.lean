import FileStyle.Text

/-!
# Binary floating-point numbers

A finite number of 64 bits is a sign and a significand times a power of two. Decoding
it once leaves only exact arithmetic on natural numbers.
-/

namespace FileStyle

structure Binary64 where
  negative : Bool
  significand : Nat
  exponent : Int
  deriving DecidableEq, Repr

namespace Binary64

/-- Decodes 64 bits; infinities and what is no number have no value. -/
def ofBits? (bits : UInt64) : Option Binary64 :=
  let n := bits.toNat
  let negative := decide (Nat.pow 2 63 ≤ n)
  let biased : Nat := n / Nat.pow 2 52 % Nat.pow 2 11
  let fraction : Nat := n % Nat.pow 2 52
  if biased = 2047 then
    none
  else if biased = 0 then
    some ⟨negative, fraction, -1074⟩
  else
    some ⟨negative, Nat.pow 2 52 + fraction, Int.ofNat biased - 1075⟩

def ofFloat? (x : Float) : Option Binary64 :=
  ofBits? x.toBits

def roundedQuotient (num den : Nat) : Nat :=
  let q := num / den
  let r := 2 * (num % den)
  if r < den then q
  else if den < r then q + 1
  else q + q % 2

/-! ### Decimal places -/

/-- The magnitude in units of the last of so many decimal places, halves to the even. -/
def scaled (b : Binary64) (places : Nat) : Nat :=
  let n := b.significand * Nat.pow 10 places
  if 0 ≤ b.exponent then
    n * Nat.pow 2 b.exponent.toNat
  else
    roundedQuotient n (Nat.pow 2 (-b.exponent).toNat)

def fixed (b : Binary64) (places : Nat) : String :=
  let digits := Text.decimalOfNat (b.scaled places)
  let padded := List.replicate (places + 1 - digits.length) '0' ++ digits
  let whole := padded.length - places
  String.ofList ((if b.negative then ['-'] else []) ++ padded.take whole ++
    if places = 0 then [] else '.' :: padded.drop whole)

def fixedText (places : Nat) (x : Float) : String :=
  match ofFloat? x with
  | some b => b.fixed places
  | none => if x.isNaN then "nan" else if x < 0 then "-inf" else "inf"

/-- The nearest number with two decimal places. From a certain size on every number is
its own. -/
def hundredths (x : Float) : Float :=
  match ofFloat? x with
  | none => x
  | some b =>
      if b.scaled 2 < Nat.pow 2 53 then
        let magnitude := Float.ofNat (b.scaled 2) / 100.0
        if b.negative then -magnitude else magnitude
      else
        x

end Binary64

/-!
## The shortest decimal form

A number is written with the fewest decimal digits that read back as the same number,
and of those as close to it as they get. The numbers that read back are an interval;
the coarsest decimal grid that has a point in it gives the digits.
-/

namespace Binary64

/-! ### The interval -/

/-- The numbers that round to a given one, as multiples of one unit: a quarter of the
distance to the next number. -/
structure Interval where
  low : Nat
  middle : Nat
  high : Nat
  /-- Whether the ends belong to the interval. -/
  closed : Bool
  /-- The exponent of two of the unit. -/
  exponent : Int

/-- Below a power of two the next number is only half as far away, unless the numbers
are as dense as they get. -/
def interval (b : Binary64) : Interval where
  low := 4 * b.significand - if b.significand = Nat.pow 2 52 ∧ -1074 < b.exponent then 1 else 2
  middle := 4 * b.significand
  high := 4 * b.significand + 2
  closed := b.significand % 2 = 0
  exponent := b.exponent - 2

/-! ### Decimal grids -/

def commonMeasure (two ten : Int) : Nat × Nat :=
  (Nat.pow 2 two.toNat * Nat.pow 10 (-ten).toNat,
    Nat.pow 2 (-two).toNat * Nat.pow 10 ten.toNat)

/-- The point of the grid with the given power of ten that reads back and is nearest,
if one reads back. -/
def Interval.gridPoint? (i : Interval) (ten : Int) : Option Nat :=
  let (unit, step) := commonMeasure i.exponent ten
  let inside (d : Nat) : Bool :=
    if i.closed then i.low * unit ≤ d * step && d * step ≤ i.high * unit
    else i.low * unit < d * step && d * step < i.high * unit
  let below := i.middle * unit / step
  let above := below + 1
  let nearer :=
    let gapBelow := i.middle * unit - below * step
    let gapAbove := above * step - i.middle * unit
    if gapBelow < gapAbove then below
    else if gapAbove < gapBelow then above
    else if below % 2 = 0 then below
    else above
  if inside below && inside above then some nearer
  else if inside below then some below
  else if inside above then some above
  else none

/-- The digits and the power of ten of the last of them. No grid finer than the last one
tried is ever needed. -/
def shortest (b : Binary64) : Nat × Int :=
  let grids := (List.range 634).map fun (k : Nat) => (309 : Int) - k
  (grids.findSome? fun ten => (b.interval.gridPoint? ten).map fun d => (d, ten)).getD (0, 0)

/-! ### Layout -/

structure Layout where
  /-- The least exponent of ten at which a number is written without an exponent. -/
  positionalFrom : Int
  /-- The exponent of ten from which on a number is written with an exponent again. -/
  positionalBelow : Int
  exponentDigits : Nat

namespace Layout

def zeros (n : Nat) : List Char :=
  List.replicate n '0'

def positional (digits : List Char) (exponent : Int) : List Char :=
  if exponent < 0 then
    '0' :: '.' :: zeros ((-exponent).toNat - 1) ++ digits
  else
    let whole := exponent.toNat + 1
    if digits.length ≤ whole then
      digits ++ zeros (whole - digits.length) ++ ['.', '0']
    else
      digits.take whole ++ '.' :: digits.drop whole

def scientific (l : Layout) (digits : List Char) (exponent : Int) : List Char :=
  let magnitude := Text.decimalOfNat exponent.natAbs
  digits.take 1 ++ (if digits.length ≤ 1 then [] else '.' :: digits.drop 1) ++
    'e' :: (if exponent < 0 then '-' else '+') ::
      zeros (l.exponentDigits - magnitude.length) ++ magnitude

def magnitude (l : Layout) (b : Binary64) : List Char :=
  if b.significand = 0 then
    ['0', '.', '0']
  else
    let (d, ten) := b.shortest
    let all := Text.decimalOfNat d
    let digits := (all.reverse.dropWhile (· = '0')).reverse
    let exponent := ten + all.length - 1
    if l.positionalFrom ≤ exponent ∧ exponent < l.positionalBelow then
      positional digits exponent
    else
      l.scientific digits exponent

def write (l : Layout) (b : Binary64) : String :=
  String.ofList ((if b.negative then ['-'] else []) ++ l.magnitude b)

end Layout
end Binary64

end FileStyle
