/-
The order of decimals is the order of the numbers that they stand for.

A comparison looks at the parts before the point and, if these are the same,
at the parts behind it. At the larger of the two scales each number is an
integer, and its two parts are quotient and remainder of that integer by one
power of ten, both cut toward zero. So the comparison is one of integers
(`compares_tdiv_tmod`): a larger quotient belongs to a larger integer because
truncation is monotone, whatever the signs are, and under equal quotients the
remainders decide.

The parts behind the point stay below the power of ten when they are moved to
the larger scale, so no product on the way leaves the range
(`fractionFits`).
-/
import Mathlib.Order.Compare
import StackMachine.Proofs.Decimal.NormalForm
import StackMachine.Proofs.Decimal.Refusal

namespace StackMachine

-- ===================================================== comparing by parts

/-- Quotients, and after them remainders, compare integers. -/
theorem compares_tdiv_tmod {u : Int} (hu : 0 < u) (x y : Int) :
    ((compare (x.tdiv u) (y.tdiv u)).then
      (compare (x.tmod u) (y.tmod u))).Compares x y := by
  have hless : ∀ {x y : Int}, x.tdiv u < y.tdiv u → x < y := fun h =>
    lt_of_not_ge fun hge => absurd (Int.tdiv_le_tdiv hu hge) (not_le.mpr h)
  have hx := Int.mul_tdiv_add_tmod x u
  have hy := Int.mul_tdiv_add_tmod y u
  rcases lt_trichotomy (x.tdiv u) (y.tdiv u) with hlt | heq | hgt
  · rw [Int.compare_eq_lt.mpr hlt]
    exact hless hlt
  · rw [Int.compare_eq_eq.mpr heq, Ordering.eq_then]
    -- with equal quotients the remainders make the difference
    rw [heq] at hx
    rcases lt_trichotomy (x.tmod u) (y.tmod u) with hlt | hsame | hgt
    · rw [Int.compare_eq_lt.mpr hlt]
      show x < y
      omega
    · rw [Int.compare_eq_eq.mpr hsame]
      show x = y
      omega
    · rw [Int.compare_eq_gt.mpr hgt]
      show y < x
      omega
  · rw [Int.compare_eq_gt.mpr hgt]
    exact hless hgt

namespace Decimal

variable {d : Decimal} {s : Nat}

/-- The whole part is the quotient at any scale no smaller than the number's
own. -/
theorem whole_eq_tdiv (h : d.scale ≤ s) :
    d.whole = (d.mantissaAt s).tdiv (tenTo s) := by
  obtain ⟨c, rfl⟩ := Nat.exists_eq_add_of_le h
  have hc : (0 : ℤ) < tenTo c := by exact_mod_cast tenTo_pos c
  unfold whole mantissaAt
  rw [Nat.add_sub_cancel_left, tenTo_add, Nat.cast_mul,
    Int.mul_tdiv_mul_of_pos_left _ _ hc]

/-- The digits behind the point are what is left over. -/
theorem fractionAt_eq_tmod (h : d.scale ≤ s) :
    d.fractionAt s = (d.mantissaAt s).tmod (tenTo s) := by
  obtain ⟨c, rfl⟩ := Nat.exists_eq_add_of_le h
  have hc : (0 : ℤ) < tenTo c := by exact_mod_cast tenTo_pos c
  unfold fractionAt mantissaAt
  rw [Nat.add_sub_cancel_left, tenTo_add, Nat.cast_mul, mul_comm,
    mul_comm d.mantissa, mul_comm (tenTo d.scale : ℤ),
    Int.mul_tmod_mul_of_pos _ _ hc]

/-- The order of decimals is the order of their numbers. -/
theorem compares_order (a b : Decimal) :
    (a.order b).Compares a.value b.value := by
  have ha : a.scale ≤ max a.scale b.scale := Nat.le_max_left _ _
  have hb : b.scale ≤ max a.scale b.scale := Nat.le_max_right _ _
  unfold order
  rw [value_eq_mantissaAt a ha, value_eq_mantissaAt b hb, whole_eq_tdiv ha,
    whole_eq_tdiv hb, fractionAt_eq_tmod ha, fractionAt_eq_tmod hb]
  generalize max a.scale b.scale = s
  have hmono : StrictMono fun n : ℤ => (n : ℚ) / tenTo s := fun m n h =>
    div_lt_div_of_pos_right (Int.cast_lt.mpr h) (tenTo_rat_pos s)
  apply hmono.compares.mpr
  exact compares_tdiv_tmod (by exact_mod_cast tenTo_pos s) _ _

theorem order_eq_eq_iff {a b : Decimal} : a.order b = .eq ↔ a = b := by
  rw [(compares_order a b).eq_eq, value_inj]

/-- The comparison is that of the exact values. -/
theorem less_eq_decide (a b : Decimal) :
    a.less b = decide (a.value < b.value) := by
  rw [Bool.eq_iff_iff, decide_eq_true_iff, ← (compares_order a b).eq_lt]
  exact beq_iff_eq

-- ====================================================== staying in range

theorem inWideRange_tenTo {n : Nat} (h : n ≤ maxScale) :
    InWideRange (tenTo n) := by
  have hlargest : InWideRange (1 * tenTo maxScale) := by decide
  simpa using hlargest.of_tenTo_le h

/-- The part behind the point is less than one. -/
theorem natAbs_fractionAt_lt (h : d.scale ≤ s) :
    (d.fractionAt s).natAbs < tenTo s := by
  rw [fractionAt_eq_tmod h, Int.natAbs_tmod, Int.natAbs_natCast]
  exact Nat.mod_lt _ (tenTo_pos s)

/-- What a comparison at scale `s` computes with the digits of `d` fits 128
bits. -/
structure FractionFits (d : Decimal) (s : Nat) : Prop where
  /-- The power of ten that the number is split by. -/
  unit : InWideRange (tenTo d.scale)
  /-- The power of ten that moves the part behind the point. -/
  factor : InWideRange (tenTo (s - d.scale))
  /-- The part behind the point when it is moved. -/
  product : InWideRange (d.fractionAt s)

/-- So is everything that a comparison computes with the digits behind the
point. -/
theorem fractionFits (h : d.scale ≤ s) (hs : s ≤ maxScale) :
    FractionFits d s where
  unit := inWideRange_tenTo d.scale_le
  factor := inWideRange_tenTo ((Nat.sub_le _ _).trans hs)
  product := by
    have hlt := natAbs_fractionAt_lt h
    have hten := inWideRange_tenTo hs
    unfold InWideRange at hten ⊢
    omega

end Decimal

-- ========================================================= order of values

/-- The number that an integer or a decimal stands for. -/
def Value.rational? : Value → Option ℚ
  | int n => some n.toInt
  | decimal d => some d.value
  | _ => none

/-- An integer is itself as a decimal number. -/
theorem Decimal.value_ofInt64 (n : Int64) : (ofInt64 n).value = n.toInt := by
  unfold value ofInt64
  rw [tenTo_zero, Nat.cast_one, div_one]

/-- Values that stand for numbers are compared as these numbers. -/
theorem Value.lessThan_eq_decide {a b : Value} {x y : ℚ}
    (ha : a.rational? = some x) (hb : b.rational? = some y) :
    a.lessThan b = .ok (decide (x < y)) := by
  cases a with
  | int m =>
      obtain rfl := Option.some.inj ha
      cases b with
      | int n =>
          obtain rfl := Option.some.inj hb
          simp [lessThan]
      | decimal d =>
          obtain rfl := Option.some.inj hb
          simp only [lessThan, Decimal.less_eq_decide, Decimal.value_ofInt64]
      | null | float _ | bool _ | string _ => cases hb
  | decimal c =>
      obtain rfl := Option.some.inj ha
      cases b with
      | int n =>
          obtain rfl := Option.some.inj hb
          simp only [lessThan, Decimal.less_eq_decide, Decimal.value_ofInt64]
      | decimal d =>
          obtain rfl := Option.some.inj hb
          simp only [lessThan, Decimal.less_eq_decide]
      | null | float _ | bool _ | string _ => cases hb
  | null | float _ | bool _ | string _ => cases ha

/-- The order of integers and decimals is the exact one. Decimals are found
equal only if they are the same, and no product on the way leaves the
range. -/
theorem order_exact :
    (∀ (a b : Value) (x y : ℚ), a.rational? = some x → b.rational? = some y →
      a.lessThan b = .ok (decide (x < y))) ∧
    (∀ a b : Decimal, (a.order b).Compares a.value b.value
      ∧ (a.order b = .eq ↔ a = b)) ∧
    (∀ a b : Decimal,
      a.FractionFits (max a.scale b.scale)
        ∧ b.FractionFits (max a.scale b.scale)) := by
  refine ⟨fun _ _ _ _ => Value.lessThan_eq_decide,
    fun a b => ⟨Decimal.compares_order a b, Decimal.order_eq_eq_iff⟩,
    fun a b => ?_⟩
  have hs : max a.scale b.scale ≤ Decimal.maxScale :=
    Nat.max_le.mpr ⟨a.scale_le, b.scale_le⟩
  exact ⟨Decimal.fractionFits (Nat.le_max_left _ _) hs,
    Decimal.fractionFits (Nat.le_max_right _ _) hs⟩

/-- Numbers with nothing before their points and different scales, and an
integer. -/
theorem halves_order :
    ∃ c d, Decimal.ofText "-0.5" = .ok c ∧ Decimal.ofText "-0.49" = .ok d
      ∧ (Value.decimal c).lessThan (.decimal d) = .ok true
      ∧ (Value.decimal d).lessThan (.int 0) = .ok true := by
  let c : Decimal := ⟨-5, 1, by decide, by decide, by decide⟩
  let d : Decimal := ⟨-49, 2, by decide, by decide, by decide⟩
  have hcd : c.value < d.value := by decide +kernel
  have hd : d.value < ((0 : Int64).toInt : ℚ) := by decide +kernel
  refine ⟨c, d, by decide +kernel, by decide +kernel, ?_, ?_⟩
  · rw [order_exact.1 (.decimal c) (.decimal d) _ _ rfl rfl,
      decide_eq_true hcd]
  · rw [order_exact.1 (.decimal d) (.int 0) _ _ rfl rfl, decide_eq_true hd]

end StackMachine
