/-
Binary floating point of 64 bits, kept by its bits: two numbers are equal
when their bits are, so the zeros differ, a NaN equals itself, and an image
that stores the bits loses nothing. Arithmetic and order are those of the
arithmetic unit and see the number, not the bits.

`ofRatio` is the one way from exact numbers: the nearest binary number to a
quotient, the even one of two that are equally near. Integers, decimals and
decimal text all come in through it.
-/

namespace StackMachine

/-- A 64-bit binary floating-point number, by its bits: sign (1), exponent
(11), fraction (52). -/
structure Binary64 where
  bits : UInt64
  deriving DecidableEq

namespace Binary64

-- =============================================================== fields

/-- The sign field when it is set. -/
def signUnit : Nat := 0x8000000000000000

/-- One in the exponent field. In a significand it is the first digit, which
is not stored. -/
def exponentUnit : Nat := 0x10000000000000

/-- The sign bit. -/
def negative (x : Binary64) : Bool := signUnit ≤ x.bits.toNat

/-- The bits below the sign, which grow with the magnitude. -/
def magnitude (x : Binary64) : Nat := x.bits.toNat % signUnit

/-- The biased exponent. -/
def exponent (x : Binary64) : Nat := x.magnitude / exponentUnit

/-- The fraction field. -/
def fraction (x : Binary64) : Nat := x.magnitude % exponentUnit

/-- The magnitude bits of an infinity: every exponent bit set. -/
def infiniteMagnitude : Nat := 0x7FF0000000000000

/-- A number from its sign and magnitude bits. -/
def ofMagnitude (negative : Bool) (magnitude : Nat) : Binary64 :=
  ⟨UInt64.ofNat ((if negative then signUnit else 0) + magnitude)⟩

/-- Not a number: past the infinities. -/
def isNaN (x : Binary64) : Bool := infiniteMagnitude < x.magnitude

/-- One of the two infinities. -/
def isInfinite (x : Binary64) : Bool := x.magnitude == infiniteMagnitude

/-- One of the two zeros. -/
def isZero (x : Binary64) : Bool := x.magnitude == 0

/-- An infinity of the given sign. -/
def infinity (negative : Bool) : Binary64 :=
  ofMagnitude negative infiniteMagnitude

/-- The quiet NaN without a payload, of the given sign. -/
def quietNaN (negative : Bool) : Binary64 :=
  ofMagnitude negative 0x7FF8000000000000

-- ============================================================= rounding

/-- The integer nearest to `num / den`, the even one of two that are equally
near. -/
def roundQuotient (num den : Nat) : Nat :=
  let q := num / den
  let r := num % den
  if den < 2 * r ∨ (den = 2 * r ∧ q % 2 = 1) then q + 1 else q

/-- `num / den` in units of `2 ^ e`, as a quotient of naturals. -/
def inUnits (num den : Nat) (e : Int) : Nat × Nat :=
  if 0 ≤ e then (num, den <<< e.toNat) else (num <<< (-e).toNat, den)

/-- The exponent of the unit in which `num / den` is rounded: the one that
leaves 53 binary digits before the point, and no smaller than the unit of the
subnormal numbers. -/
def unitExponent (num den : Nat) : Int :=
  let e : Int := (num.log2 : Int) - den.log2 - 53
  let (n, d) := inUnits num den e
  max (if 2 * exponentUnit ≤ n / d then e + 1 else e) (-1074)

/-- The magnitude bits nearest to `num / den`. A significand that rounds up to
`2 ^ 53` carries into the exponent field, which is the next binary number, and
what is too large is infinite. -/
def magnitudeOfRatio (num den : Nat) : Nat :=
  if num = 0 then 0
  else
    let e := unitExponent num den
    let (n, d) := inUnits num den e
    min ((e + 1074).toNat * exponentUnit + roundQuotient n d) infiniteMagnitude

/-- The number nearest to `num / den`, negated on request; ties go to the
even neighbour. -/
def ofRatio (negative : Bool) (num den : Nat) : Binary64 :=
  ofMagnitude negative (magnitudeOfRatio num den)

/-- The number nearest to an integer. -/
def ofInt (n : Int) : Binary64 := ofRatio (n < 0) n.natAbs 1

-- =========================================================== arithmetic

/-- The number as the arithmetic unit sees it. -/
def toFloat (x : Binary64) : Float := Float.ofBits x.bits

/-- A result of the arithmetic unit. -/
def ofFloat (f : Float) : Binary64 := ⟨f.toBits⟩

/-- The rounded sum. -/
def add (x y : Binary64) : Binary64 := ofFloat (x.toFloat + y.toFloat)

/-- The rounded difference. -/
def sub (x y : Binary64) : Binary64 := ofFloat (x.toFloat - y.toFloat)

/-- The rounded product. -/
def mul (x y : Binary64) : Binary64 := ofFloat (x.toFloat * y.toFloat)

/-- The rounded quotient. -/
def div (x y : Binary64) : Binary64 := ofFloat (x.toFloat / y.toFloat)

/-- Numeric order: a NaN is below nothing, and the zeros are equal. -/
def less (x y : Binary64) : Bool := x.toFloat < y.toFloat

end Binary64

end StackMachine
