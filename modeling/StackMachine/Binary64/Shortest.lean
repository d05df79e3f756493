/-
The text of a binary number: the fewest decimal digits that read back as the
same number, and of those the nearest to its value, the larger of two that
are equally near. The digits are always written positionally, an integral
number without a point.

The numbers that read back as `x` are an interval around it, half way to
each neighbour, with its ends when the significand is even. On the grid of
one more digit the two grid points around `x` are the only ones to test, so
the search tries one digit, then two, and takes the first grid with a hit;
seventeen digits always suffice.
-/
import StackMachine.Binary64.Basic
import StackMachine.Tens

namespace StackMachine.Binary64

/-- A positive number and the ends of the interval that reads back as it, over
one denominator. -/
structure Span where
  low : Nat
  value : Nat
  high : Nat
  den : Nat
  /-- Whether the ends themselves read back. -/
  closed : Bool

/-- The span of a finite magnitude, in quarters of its unit: half a unit to
each side, but only a quarter below a power of two, where the numbers below
lie twice as dense. -/
def span (x : Binary64) : Span :=
  let significand := if x.exponent = 0 then x.fraction
    else exponentUnit + x.fraction
  let below := if x.fraction = 0 ∧ 1 < x.exponent then 1 else 2
  let e : Int := max x.exponent 1 - 1077
  { low := (4 * significand - below) <<< e.toNat
    value := (4 * significand) <<< e.toNat
    high := (4 * significand + 2) <<< e.toNat
    den := 1 <<< (-e).toNat
    closed := significand % 2 = 0 }

/-- The number of decimal digits of a positive natural number. -/
def digitCount (n : Nat) : Nat := (Nat.toDigits 10 n).length

namespace Span

/-- The same numbers in units of `10 ^ x`. -/
def inTens (s : Span) (x : Int) : Span :=
  let up := tenTo (-x).toNat
  { s with
    low := s.low * up
    value := s.value * up
    high := s.high * up
    den := s.den * tenTo x.toNat }

/-- Whether the integer `n` reads back, in the units of the span. -/
def holds (s : Span) (n : Nat) : Bool :=
  if s.closed then s.low ≤ n * s.den && n * s.den ≤ s.high
  else s.low < n * s.den && n * s.den < s.high

/-- The place of the first decimal digit: the value lies below `10 ^ s.place`
and not below a tenth of it. -/
def place (s : Span) : Int :=
  let guess : Int := (digitCount s.value : Int) - digitCount s.den
  let scaled := s.inTens guess
  if scaled.den ≤ scaled.value then guess + 1 else guess

/-- Of the two integers around the value, the one that reads back; the nearer
when both do, the larger when they are equally near. -/
def neighbour? (s : Span) : Option Nat :=
  let down := s.value / s.den
  let rest := s.value % s.den
  match s.holds down, s.holds (down + 1) with
  | true, true => some (if 2 * rest < s.den then down else down + 1)
  | true, false => some down
  | false, true => some (down + 1)
  | false, false => none

/-- Tries one more digit until a grid holds a number that reads back; `tries`
more are left. -/
def search (s : Span) (x : Int) : (tries : Nat) → Nat × Int
  | 0 => ((s.inTens x).value / (s.inTens x).den, x)
  | tries + 1 =>
    match (s.inTens x).neighbour? with
    | some digits => (digits, x)
    | none => search s (x - 1) tries

/-- The shortest `digits · 10 ^ x` that reads back. -/
def shortest (s : Span) : Nat × Int := s.search (s.place - 1) 17

end Span

/-- `digits · 10 ^ x` without an exponent: no zeros at the end of a fraction,
and no point without a fraction. -/
def positional (digits : Nat) (x : Int) : String :=
  let ds := Nat.toDigits 10 digits
  if 0 ≤ x then String.ofList (ds ++ List.replicate x.toNat '0')
  else
    let places := (-x).toNat
    let padded := List.replicate (places + 1 - ds.length) '0' ++ ds
    let whole := padded.take (padded.length - places)
    let fraction :=
      ((padded.drop (padded.length - places)).reverse.dropWhile
        (· == '0')).reverse
    String.ofList
      (if fraction.isEmpty then whole else whole ++ '.' :: fraction)

/-- The canonical text: `NaN` without a sign, `inf`, `-0`, and otherwise the
shortest digits. -/
def toText (x : Binary64) : String :=
  if x.isNaN then "NaN"
  else
    let sign := if x.negative then "-" else ""
    if x.isInfinite then sign ++ "inf"
    else if x.isZero then sign ++ "0"
    else
      let (digits, place) := x.span.shortest
      sign ++ positional digits place

end StackMachine.Binary64
