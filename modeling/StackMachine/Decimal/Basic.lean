/-
Exact decimal numbers: a mantissa of 128 bits and up to 28 digits after the
point. Every number is kept reduced, without a zero at the end of its
fraction, so equal numbers have equal fields; the range, the scale and the
reduced form are part of the type.

Sums and products are exact or refused. A result with more than 28 digits
after the point is cut toward zero, and a quotient carries as many digits as
the range allows, at most 28.
-/
import StackMachine.Binary64.Basic
import StackMachine.Tens

namespace StackMachine

/-- The range of a 128-bit signed integer. -/
def InWideRange (n : Int) : Prop :=
  -0x80000000000000000000000000000000 ≤ n
    ∧ n < 0x80000000000000000000000000000000

instance (n : Int) : Decidable (InWideRange n) := by
  unfold InWideRange
  infer_instance

/-- A number without a sign is in range if 127 bits hold it. -/
theorem inWideRange_natCast {n : Nat} :
    InWideRange n ↔ n < 0x80000000000000000000000000000000 := by
  unfold InWideRange
  omega

/-- A 128-bit signed integer. -/
abbrev Wide := { n : Int // InWideRange n }

/-- The integer, when it fits 128 bits. -/
def Wide.ofInt? (n : Int) : Option Wide :=
  if h : InWideRange n then some ⟨n, h⟩ else none

/-- An integer in range fits. -/
theorem Wide.ofInt?_of_inWideRange {n : Int} (h : InWideRange n) :
    Wide.ofInt? n = some ⟨n, h⟩ := dif_pos h

/-- Exactly the integers out of range do not fit. -/
theorem Wide.ofInt?_eq_none {n : Int} :
    Wide.ofInt? n = none ↔ ¬ InWideRange n := by
  unfold Wide.ofInt?
  split <;> simp_all

/-- What fits is kept as it is. -/
theorem Wide.val_of_ofInt? {n : Int} {w : Wide} (h : Wide.ofInt? n = some w) :
    w.val = n := by
  unfold Wide.ofInt? at h
  split at h
  · rw [← Option.some.inj h]
  · cases h

/-- Cutting off digits stays in range. -/
theorem InWideRange.tdiv {n : Int} (h : InWideRange n) (d : Nat) :
    InWideRange (n.tdiv d) := by
  have habs : (n.tdiv d).natAbs ≤ n.natAbs := by
    rw [Int.natAbs_tdiv]
    exact Nat.div_le_self _ _
  unfold InWideRange at h ⊢
  rcases Int.le_total 0 n with hn | hn
  · have : 0 ≤ n.tdiv d := Int.tdiv_nonneg hn (Int.natCast_nonneg d)
    omega
  · have : 0 ≤ (-n).tdiv d := Int.tdiv_nonneg (by omega) (Int.natCast_nonneg d)
    rw [Int.neg_tdiv] at this
    omega

namespace Decimal

/-- The most digits after the point. -/
def maxScale : Nat := 28

/-- `m / 10 ^ s` without zeros at the end of its fraction. -/
def reduce : (m : Int) → (s : Nat) → Int × Nat
  | m, 0 => (m, 0)
  | m, s + 1 => if m % 10 = 0 then reduce (m / 10) s else (m, s + 1)

/-- Taking zeros off the end makes the scale no larger. -/
theorem reduce_scale_le (m : Int) (s : Nat) : (reduce m s).2 ≤ s := by
  induction s generalizing m with
  | zero => simp [reduce]
  | succ s ih =>
    unfold reduce
    split
    · exact Nat.le_succ_of_le (ih _)
    · exact Nat.le_refl _

/-- It brings the mantissa no further from zero. -/
theorem reduce_inWideRange {m : Int} (h : InWideRange m) (s : Nat) :
    InWideRange (reduce m s).1 := by
  induction s generalizing m with
  | zero => simpa [reduce] using h
  | succ s ih =>
    unfold reduce
    split
    · apply ih
      unfold InWideRange at h ⊢
      omega
    · exact h

/-- It ends at scale zero or at a digit that is not zero. -/
theorem reduce_reduced (m : Int) (s : Nat) :
    (reduce m s).2 = 0 ∨ (reduce m s).1 % 10 ≠ 0 := by
  induction s generalizing m with
  | zero => simp [reduce]
  | succ s ih =>
    unfold reduce
    split
    · exact ih _
    · next h => exact .inr h

end Decimal

/-- An exact decimal number, `mantissa / 10 ^ scale`. -/
structure Decimal where
  mantissa : Int
  /-- The digits after the point. -/
  scale : Nat
  inWideRange : InWideRange mantissa
  scale_le : scale ≤ Decimal.maxScale
  /-- A fraction does not end in zero, and zero has no fraction. -/
  reduced : scale = 0 ∨ mantissa % 10 ≠ 0
  deriving DecidableEq

namespace Decimal

-- ========================================================= construction

/-- `m / 10 ^ s` in reduced form. -/
def normal (m : Wide) (s : Nat) (h : s ≤ maxScale) : Decimal where
  mantissa := (reduce m.val s).1
  scale := (reduce m.val s).2
  inWideRange := reduce_inWideRange m.property s
  scale_le := Nat.le_trans (reduce_scale_le m.val s) h
  reduced := reduce_reduced m.val s

/-- `m / 10 ^ s`, unless it asks for too many digits after the point. -/
def new? (m : Wide) (s : Nat) : Option Decimal :=
  if h : s ≤ maxScale then some (normal m s h) else none

/-- A machine integer as a decimal. -/
def ofInt64 (n : Int64) : Decimal where
  mantissa := n.toInt
  scale := 0
  inWideRange := by
    have h₁ := n.le_toInt
    have h₂ := n.toInt_lt
    unfold InWideRange
    omega
  scale_le := Nat.zero_le _
  reduced := .inl rfl

/-- Whether the number is zero. -/
def isZero (d : Decimal) : Bool := d.mantissa == 0

/-- The mantissa as a 128-bit integer. -/
def wide (d : Decimal) : Wide := ⟨d.mantissa, d.inWideRange⟩

/-- `m / 10 ^ s` for any scale: a negative one multiplies and may leave the
range, and digits past the 28th after the point are cut off toward zero. -/
def rescale? (m : Wide) (s : Int) : Option Decimal :=
  if s < 0 then
    (Wide.ofInt? (m.val * tenTo (-s).toNat)).map
      fun m => normal m 0 (Nat.zero_le _)
  else if h : s.toNat ≤ maxScale then some (normal m s.toNat h)
  else
    some (normal ⟨m.val.tdiv (tenTo (s.toNat - maxScale)), m.property.tdiv _⟩
      maxScale (Nat.le_refl _))

-- =========================================================== arithmetic

/-- The mantissa at a scale no smaller than the number's own. -/
def alignedTo? (d : Decimal) (s : Nat) : Option Wide :=
  Wide.ofInt? (d.mantissa * tenTo (s - d.scale))

/-- Both mantissas at the larger of the two scales, combined there. -/
def combine? (f : Int → Int → Int) (a b : Decimal) : Option Decimal :=
  match a.alignedTo? (max a.scale b.scale),
    b.alignedTo? (max a.scale b.scale) with
  | some x, some y =>
    (Wide.ofInt? (f x.val y.val)).map fun m =>
      normal m (max a.scale b.scale) (Nat.max_le.mpr ⟨a.scale_le, b.scale_le⟩)
  | _, _ => none

/-- The exact sum, unless a number on the way leaves the range. -/
def add? (a b : Decimal) : Option Decimal := combine? (· + ·) a b

/-- The exact difference, unless a number on the way leaves the range. -/
def sub? (a b : Decimal) : Option Decimal := combine? (· - ·) a b

/-- The product cut to 28 digits after the point, unless the full product
leaves the range. -/
def mul? (a b : Decimal) : Option Decimal :=
  match Wide.ofInt? (a.mantissa * b.mantissa) with
  | some m => rescale? m (a.scale + b.scale)
  | none => none

/-- The largest shift up to `shift` whose power of ten keeps `m` in range, and
`m` so shifted. -/
def widen? (m : Int) : (shift : Nat) → Option (Wide × Nat)
  | 0 => (Wide.ofInt? m).map fun w => (w, 0)
  | shift + 1 =>
    match Wide.ofInt? (m * tenTo (shift + 1)) with
    | some w => some (w, shift + 1)
    | none => widen? m shift

/-- The quotient cut toward zero. The dividend is widened until the quotient
has 28 digits after the point, or as many as the range allows. -/
def div? (a b : Decimal) : Option Decimal :=
  if b.isZero then none
  else
    match widen? a.mantissa (maxScale + b.scale - a.scale) with
    | none => none
    | some (dividend, shift) =>
      match Wide.ofInt? (dividend.val.tdiv b.mantissa) with
      | none => none
      | some quotient => rescale? quotient (a.scale + shift - b.scale)

-- ================================================================ order

/-- The part before the point, cut toward zero. -/
def whole (d : Decimal) : Int := d.mantissa.tdiv (tenTo d.scale)

/-- The part after the point as an integer at a scale no smaller than the
number's own; it has the number's sign. -/
def fractionAt (d : Decimal) (s : Nat) : Int :=
  d.mantissa.tmod (tenTo d.scale) * tenTo (s - d.scale)

/-- Numeric order: the parts before the point decide, and after them the
fractions at a common scale. -/
def order (a b : Decimal) : Ordering :=
  (compare a.whole b.whole).then
    (compare (a.fractionAt (max a.scale b.scale))
      (b.fractionAt (max a.scale b.scale)))

/-- Numeric order as a test. -/
def less (a b : Decimal) : Bool := a.order b == .lt

/-- The nearest binary number to the mantissa, divided by the nearest to the
power of ten. -/
def toBinary64 (d : Decimal) : Binary64 :=
  (Binary64.ofInt d.mantissa).div (Binary64.ofInt (tenTo d.scale))

end Decimal

end StackMachine
