/-
Arithmetic on machine integers against arithmetic on the integers.
`Arith.Yields` says what an operator yields on two integers without a word
of how it is computed: a quotient is the rational quotient cut toward zero,
and there is none by zero. The operator on two machine integers gives that
number when it fits 64 bits and is refused when it does not.

The number in between is 128 bits wide and its arithmetic is not checked:
a result that leaves the width, or a division by zero, would stop the
program and not be refused. `arithWide` carries these stops along and never
meets one: no result on two numbers of 64 bits is wider than their product
(`Arith.inWideRange_onInt`), and the zero divisors have been refused before
the division is reached (`arithWide_eq`).
-/
import StackMachine.Proofs.Decimal.Rational
import StackMachine.Value

namespace StackMachine

-- ============================================== what an operator yields

namespace Arith

/-- The number that an operator yields on two integers, the left one first. -/
inductive Yields (a b : ℤ) : Arith → ℤ → Prop
  | add : Yields a b .add (a + b)
  | sub : Yields a b .sub (a - b)
  | mul : Yields a b .mul (a * b)
  /-- The quotient without the digits after its point. -/
  | div {q : ℤ} (nonzero : b ≠ 0) (cut : IsCut 0 ((a : ℚ) / b) q) :
    Yields a b .div q

/-- Divisions by zero yield nothing. -/
def ByZero (op : Arith) (b : ℤ) : Prop := op = .div ∧ b = 0

variable {op : Arith} {a b r : ℤ}

/-- Integer division is the exact quotient without its digits behind the
point. -/
theorem isCut_tdiv_of_ne_zero (hb : b ≠ 0) :
    IsCut 0 ((a : ℚ) / b) (a.tdiv b : ℤ) := by
  have hcut : IsCut 0 ((a : ℚ) / b) ((a.tdiv b : ℚ) / tenTo 0) :=
    isCut_tdiv hb (by simp)
  simpa using hcut

/-- Unless it divides by zero, an operator yields one number, the one
that is computed. -/
theorem yields_iff : op.Yields a b r ↔ ¬ op.ByZero b ∧ r = op.onInt a b := by
  constructor
  · intro h
    cases h with
    | add => exact ⟨by simp [ByZero], rfl⟩
    | sub => exact ⟨by simp [ByZero], rfl⟩
    | mul => exact ⟨by simp [ByZero], rfl⟩
    | div hb hcut =>
        refine ⟨fun hzero => hb hzero.2, ?_⟩
        exact_mod_cast hcut.unique (isCut_tdiv_of_ne_zero hb)
  · rintro ⟨hzero, rfl⟩
    cases op with
    | add => exact .add
    | sub => exact .sub
    | mul => exact .mul
    | div =>
        have hb : b ≠ 0 := fun hb => hzero ⟨rfl, hb⟩
        exact .div hb (isCut_tdiv_of_ne_zero hb)

end Arith

-- ==================================================== numbers in 64 bits

/-- The range of a 64-bit signed integer. -/
def InInt64Range (n : ℤ) : Prop :=
  Int64.minValue.toInt ≤ n ∧ n ≤ Int64.maxValue.toInt

/-- The range of 64 bits, with its bounds written out. -/
theorem inInt64Range_iff {n : ℤ} :
    InInt64Range n ↔ -0x8000000000000000 ≤ n ∧ n < 0x8000000000000000 := by
  have hmin : Int64.minValue.toInt = -0x8000000000000000 := rfl
  have hmax : Int64.maxValue.toInt = 0x7fffffffffffffff := rfl
  unfold InInt64Range
  omega

/-- Every integer of 64 bits is in it. -/
theorem inInt64Range_toInt (n : Int64) : InInt64Range n.toInt := by
  have hmin := n.le_toInt
  have hmax := n.toInt_lt
  rw [inInt64Range_iff]
  omega

/-- A number in it is one of them. -/
theorem InInt64Range.toInt_ofInt {n : ℤ} (h : InInt64Range n) :
    (Int64.ofInt n).toInt = n := by
  rw [inInt64Range_iff] at h
  exact Int64.toInt_ofInt_of_le (by omega) (by omega)

namespace Value

/-- The integer as a machine integer, refused when it does not fit. -/
def narrow (op : Arith) (n : ℤ) : Except ValueError Value :=
  match ofInt? n with
  | some v => .ok v
  | none => .error (.overflow op)

variable {op : Arith} {a b : Int64} {n : ℤ}

/-- A result that fits is returned. -/
theorem narrow_of_fits (h : InInt64Range n) :
    narrow op n = .ok (int (Int64.ofInt n)) := by
  have hn : ofInt? n = some (int (Int64.ofInt n)) :=
    if_pos (inInt64Range_iff.mp h)
  rw [narrow, hn]

/-- One that does not is an overflow of its operator. -/
theorem narrow_of_not_fits (h : ¬ InInt64Range n) :
    narrow op n = .error (.overflow op) := by
  have hn : ofInt? n = none := if_neg fun hn => h (inInt64Range_iff.mpr hn)
  rw [narrow, hn]

/-- What is returned is the result itself. -/
theorem narrow_eq_ok_iff {r : Int64} :
    narrow op n = .ok (int r) ↔ r.toInt = n := by
  constructor
  · intro h
    by_cases hn : InInt64Range n
    · rw [narrow_of_fits hn] at h
      cases h
      exact hn.toInt_ofInt
    · rw [narrow_of_not_fits hn] at h
      cases h
  · rintro rfl
    rw [narrow_of_fits (inInt64Range_toInt r), Int64.ofInt_toInt]

/-- There is an overflow exactly if the result does not fit. -/
theorem narrow_eq_overflow_iff :
    narrow op n = .error (.overflow op) ↔ ¬ InInt64Range n := by
  constructor
  · intro h hn
    rw [narrow_of_fits hn] at h
    cases h
  · exact narrow_of_not_fits

/-- The guard before a division sees the zeros, and nothing else. -/
theorem byZero_iff : op.ByZero b.toInt ↔ op = .div ∧ (int b).isZero := by
  have hzero : b.toInt = 0 ↔ b = 0 := by
    rw [← Int64.toInt_inj, Int64.toInt_zero]
  simp [Arith.ByZero, hzero, isZero]

/-- A division by zero is refused before anything is computed. -/
theorem arith_int_of_byZero (h : op.ByZero b.toInt) :
    arith op (int a) (int b) = .error .divisionByZero := by
  obtain ⟨rfl, hzero⟩ := byZero_iff.mp h
  simp [arith, eitherString, kind, isNumber, Kind.isNumeric, hzero]

/-- Otherwise the result of the operator on the integers is narrowed. -/
theorem arith_int (h : ¬ op.ByZero b.toInt) :
    arith op (int a) (int b) = narrow op (op.onInt a.toInt b.toInt) := by
  rw [byZero_iff] at h
  have hguards : arith op (int a) (int b) = numeric op (int a) (int b) := by
    simp [arith, eitherString, kind, isNumber, Kind.isNumeric, h]
  exact hguards

end Value

-- ========================================== 128 bits, and what stops there

/-- What stops the program in arithmetic on 128 bits. -/
inductive Trap where
  | overflow
  | zeroDivisor
  deriving DecidableEq

/-- What fits 64 bits fits 128. -/
theorem InInt64Range.inWideRange {n : ℤ} (h : InInt64Range n) :
    InWideRange n := by
  rw [inInt64Range_iff] at h
  unfold InWideRange
  omega

/-- A machine integer in 128 bits. -/
def Wide.ofInt64 (n : Int64) : Wide :=
  ⟨n.toInt, (inInt64Range_toInt n).inWideRange⟩

/-- An operator on numbers of 128 bits. It stops at a zero divisor, and where
a result leaves the width. -/
def Arith.onWide (op : Arith) (x y : Wide) : Except Trap Wide :=
  if op = .div ∧ y.val = 0 then .error .zeroDivisor
  else match Wide.ofInt? (op.onInt x.val y.val) with
    | some w => .ok w
    | none => .error .overflow

namespace Value

/-- An operator on two numbers, by way of 128 bits where both are
machine integers. -/
def numericWide
    (op : Arith) : Value → Value → Except Trap (Except ValueError Value)
  | int m, int n =>
    (op.onWide (Wide.ofInt64 m) (Wide.ofInt64 n)).map fun w => narrow op w.val
  | a, b => .ok (numeric op a b)

/-- An operator on two values, by way of 128 bits where both are machine
integers. -/
def arithWide (op : Arith)
    (a b : Value) : Except Trap (Except ValueError Value) :=
  if op = .add
    ∧ eitherString a b then .ok (.ok (string (a.toText ++ b.toText)))
  else if !(a.isNumber && b.isNumber) then
    .ok (.error (.typeMismatch (.arith op) [a.kind, b.kind]))
  else if op = .div ∧ b.isZero then .ok (.error .divisionByZero)
  else numericWide op a b

end Value

/-- A result on two numbers of 64 bits is one of 128. -/
theorem Arith.inWideRange_onInt (op : Arith) {a b : ℤ} (ha : InInt64Range a)
    (hb : InInt64Range b) : InWideRange (op.onInt a b) := by
  rw [inInt64Range_iff] at ha hb
  have ha' : a.natAbs ≤ 0x8000000000000000 := by omega
  have hb' : b.natAbs ≤ 0x8000000000000000 := by omega
  unfold InWideRange
  cases op with
  | add =>
      show _ ≤ a + b ∧ a + b < _
      omega
  | sub =>
      show _ ≤ a - b ∧ a - b < _
      omega
  | mul =>
      have hle : (a * b).natAbs ≤ 0x8000000000000000 * 0x8000000000000000 := by
        rw [Int.natAbs_mul]
        exact Nat.mul_le_mul ha' hb'
      show _ ≤ a * b ∧ a * b < _
      omega
  | div =>
      -- the least number by minus one is the one quotient that
      -- needs a 65th bit
      have hle : (a.tdiv b).natAbs ≤ a.natAbs := by
        rw [Int.natAbs_tdiv]
        exact Nat.div_le_self _ _
      show _ ≤ a.tdiv b ∧ a.tdiv b < _
      omega

theorem Arith.onWide_eq {op : Arith} {x y : Wide} (hzero : ¬ op.ByZero y.val)
    (hrange : InWideRange (op.onInt x.val y.val)) :
    op.onWide x y = .ok ⟨op.onInt x.val y.val, hrange⟩ := by
  rw [Arith.onWide, if_neg (show ¬ (op = .div ∧ y.val = 0) from hzero),
    Wide.ofInt?_of_inWideRange hrange]

namespace Value

/-- Since no operand has more than 64 bits, no operation in between overflows
128. -/
theorem numericWide_eq (op : Arith) (a b : Value)
    (hzero : ¬ (op = .div ∧ b.isZero)) :
    numericWide op a b = .ok (numeric op a b) := by
  unfold numericWide
  split
  · next m n =>
      have hrange :=
        op.inWideRange_onInt (inInt64Range_toInt m) (inInt64Range_toInt n)
      rw [Arith.onWide_eq (byZero_iff.not.mpr hzero) hrange]
      rfl
  · rfl

/-- Arithmetic meets nothing that would stop the program: a zero divisor is
refused before the division, and 128 bits hold what is computed in between. -/
theorem arithWide_eq (op : Arith) (a b : Value) :
    arithWide op a b = .ok (arith op a b) := by
  unfold arithWide arith
  split_ifs with htext hkinds hzero
  · rfl
  · rfl
  · rfl
  · exact numericWide_eq op a b hzero

-- ====================================================== exact or refused

variable {op : Arith} {a b : Int64}

/-- An integer is returned exactly if it is what the operator yields. -/
theorem arith_int_eq_ok_iff {r : Int64} :
    arith op (int a) (int b) = .ok (int r)
      ↔ op.Yields a.toInt b.toInt r.toInt := by
  rw [Arith.yields_iff]
  by_cases hzero : op.ByZero b.toInt
  · simp [arith_int_of_byZero hzero, hzero]
  · rw [arith_int hzero, narrow_eq_ok_iff]
    simp [hzero]

/-- Division by zero is reported exactly if it is one. -/
theorem arith_int_eq_divisionByZero_iff :
    arith op (int a) (int b) = .error .divisionByZero ↔ op.ByZero b.toInt := by
  refine ⟨fun h => ?_, arith_int_of_byZero⟩
  by_contra hzero
  rw [arith_int hzero] at h
  by_cases hfits : InInt64Range (op.onInt a.toInt b.toInt)
  · rw [narrow_of_fits hfits] at h
    cases h
  · rw [narrow_of_not_fits hfits] at h
    cases h

/-- An overflow is reported exactly if what the operator yields does not
fit. -/
theorem arith_int_eq_overflow_iff :
    arith op (int a) (int b) = .error (.overflow op) ↔
      ∃ r, op.Yields a.toInt b.toInt r ∧ ¬ InInt64Range r := by
  by_cases hzero : op.ByZero b.toInt
  · simp [arith_int_of_byZero hzero, Arith.yields_iff, hzero]
  · rw [arith_int hzero, narrow_eq_overflow_iff]
    simp [Arith.yields_iff, hzero]

/-- An operator on two machine integers gives a machine integer, unless it is
refused for one of two reasons. -/
theorem arith_int_cases (op : Arith) (a b : Int64) :
    (∃ r, arith op (int a) (int b) = .ok (int r)) ∨
      arith op (int a) (int b) = .error .divisionByZero ∨
      arith op (int a) (int b) = .error (.overflow op) := by
  by_cases hzero : op.ByZero b.toInt
  · exact .inr (.inl (arith_int_of_byZero hzero))
  · rw [arith_int hzero]
    by_cases hfits : InInt64Range (op.onInt a.toInt b.toInt)
    · exact .inl ⟨_, narrow_of_fits hfits⟩
    · exact .inr (.inr (narrow_of_not_fits hfits))

/-- An operator on two machine integers is exact or refused. It gives the
integer that the operator yields if this fits 64 bits; it is refused as a
division by zero if it is one, and as an overflow if what the operator yields
does not fit. No number in between leaves 128 bits, and the division on 128
bits never meets a zero divisor. -/
theorem arith_exact_or_refused (op : Arith) (a b : Int64) :
    (∀ r : Int64, arith op (int a) (int b) = .ok (int r)
      ↔ op.Yields a.toInt b.toInt r.toInt) ∧
    (arith op (int a) (int b) = .error .divisionByZero ↔ op = .div ∧ b = 0) ∧
    (arith op (int a) (int b) = .error (.overflow op) ↔
      ∃ r, op.Yields a.toInt b.toInt r ∧ ¬ InInt64Range r) ∧
    ((∃ r, arith op (int a) (int b) = .ok (int r)) ∨
      arith op (int a) (int b) = .error .divisionByZero ∨
      arith op (int a) (int b) = .error (.overflow op)) ∧
    arithWide op (int a) (int b) = .ok (arith op (int a) (int b)) := by
  have hdivisor : op.ByZero b.toInt ↔ op = .div ∧ b = 0 := by
    simp [byZero_iff, isZero]
  refine ⟨fun r => arith_int_eq_ok_iff, ?_, arith_int_eq_overflow_iff,
    arith_int_cases op a b, arithWide_eq op (int a) (int b)⟩
  rw [← hdivisor]
  exact arith_int_eq_divisionByZero_iff

example : arith .div (int Int64.minValue) (int (-1))
    = .error (.overflow .div) := by decide

end Value

end StackMachine
