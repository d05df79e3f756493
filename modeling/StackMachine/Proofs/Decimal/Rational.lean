/-
Decimal numbers as rational numbers. `value` is the number that a decimal
stands for, `cut` drops the digits of a rational number past some place, and
`Representable` says that a number has a mantissa in range at one of the
scales that decimals have.

A number cut to `k` digits is pinned down by four facts (`IsCut`): it has no
more than `k` digits, the sign of the number, no larger magnitude, and less
than a unit of the last digit is missing. All that is said below about
quotients of integers comes from `abs_div_eq`, which splits the magnitude of
a quotient into what truncation keeps and what it drops.
-/
import Mathlib.Algebra.Order.Field.Basic
import Mathlib.Data.Rat.Cast.Order
import Mathlib.Tactic.FieldSimp
import Mathlib.Tactic.Linarith
import Mathlib.Tactic.Positivity
import Mathlib.Tactic.Ring
import StackMachine.Proofs.Decimal.Canonical

namespace StackMachine

-- ======================================================== powers of ten

/-- Moving the point twice is moving it by both. -/
theorem tenTo_add (a b : Nat) : tenTo (a + b) = tenTo a * tenTo b := by
  induction b with
  | zero => simp
  | succ b ih =>
      rw [← Nat.add_assoc, tenTo_succ, tenTo_succ, ih]
      ring

/-- Powers of ten as rational numbers can be divided by. -/
theorem tenTo_rat_pos (n : Nat) : (0 : ℚ) < tenTo n :=
  Nat.cast_pos.mpr (tenTo_pos n)

-- ======================================================= cutting digits

/-- `q` is `x` cut toward zero to `k` digits after the point. -/
structure IsCut (k : Nat) (x q : ℚ) : Prop where
  /-- There are no more than `k` digits after the point. -/
  digits : ∃ n : ℤ, q = n / tenTo k
  /-- The signs are the same, or `q` is zero. -/
  sign : 0 ≤ q * x
  le : |q| ≤ |x|
  /-- Less than a unit of the last digit is missing. -/
  lt : |x| < |q| + 1 / tenTo k

/-- `x` cut toward zero to `k` digits after the point. -/
def cut (k : Nat) (x : ℚ) : ℚ :=
  (x * tenTo k).num.tdiv (x * tenTo k).den / tenTo k

/-- What truncation keeps of a quotient, and what it drops. -/
theorem abs_div_eq (n : ℤ) {d : ℤ} (hd : d ≠ 0) :
    |(n : ℚ) / d| = |(n.tdiv d : ℚ)| + |(n.tmod d : ℚ)| / |(d : ℚ)| := by
  have hnat : n.natAbs = d.natAbs * (n.tdiv d).natAbs + (n.tmod d).natAbs := by
    rw [Int.natAbs_tdiv, Int.natAbs_tmod]
    exact (Nat.div_add_mod n.natAbs d.natAbs).symm
  have habs : |n| = |d| * |n.tdiv d| + |n.tmod d| := by
    simp only [Int.abs_eq_natAbs]
    exact_mod_cast hnat
  have hrat : |(n : ℚ)| = |(d : ℚ)| * |(n.tdiv d : ℚ)| + |(n.tmod d : ℚ)| := by
    exact_mod_cast habs
  have hpos : |(d : ℚ)| ≠ 0 := abs_ne_zero.mpr (Int.cast_ne_zero.mpr hd)
  rw [abs_div, hrat]
  field_simp

/-- A truncated quotient has the sign of the quotient, or is zero. -/
theorem tdiv_mul_div_nonneg (n d : ℤ) :
    0 ≤ (n.tdiv d : ℚ) * ((n : ℚ) / d) := by
  rcases le_total 0 n with hn | hn <;> rcases le_total 0 d with hd | hd
  · have hq : 0 ≤ n.tdiv d := Int.tdiv_nonneg hn hd
    exact mul_nonneg (by exact_mod_cast hq)
      (div_nonneg (by exact_mod_cast hn) (by exact_mod_cast hd))
  · have hq : n.tdiv d ≤ 0 := Int.tdiv_nonpos_of_nonneg_of_nonpos hn hd
    exact mul_nonneg_of_nonpos_of_nonpos (by exact_mod_cast hq)
      (div_nonpos_of_nonneg_of_nonpos (by exact_mod_cast hn)
        (by exact_mod_cast hd))
  · have hq : n.tdiv d ≤ 0 := by
      have hneg := Int.tdiv_nonneg (neg_nonneg.mpr hn) hd
      rw [Int.neg_tdiv] at hneg
      omega
    exact mul_nonneg_of_nonpos_of_nonpos (by exact_mod_cast hq)
      (div_nonpos_of_nonpos_of_nonneg (by exact_mod_cast hn)
        (by exact_mod_cast hd))
  · have hq : 0 ≤ n.tdiv d := Int.tdiv_nonneg_of_nonpos_of_nonpos hn hd
    exact mul_nonneg (by exact_mod_cast hq)
      (div_nonneg_of_nonpos (by exact_mod_cast hn) (by exact_mod_cast hd))

/-- Moving the point by `k` places and truncating the quotient cuts a number
to `k` digits. -/
theorem isCut_tdiv {k : Nat} {x : ℚ} {n d : ℤ} (hd : d ≠ 0)
    (hx : x * tenTo k = n / d) :
    IsCut k x (n.tdiv d / tenTo k) := by
  have hten := tenTo_rat_pos k
  -- the remainder counts for less than a unit of the last digit
  have hdrop : |(n.tmod d : ℚ)| / |(d : ℚ)| < 1 := by
    have hlt : |n.tmod d| < |d| := by
      rw [Int.abs_eq_natAbs, Int.abs_eq_natAbs, Int.natAbs_tmod]
      exact_mod_cast Nat.mod_lt _ (Int.natAbs_pos.mpr hd)
    rw [div_lt_one (abs_pos.mpr (Int.cast_ne_zero.mpr hd))]
    exact_mod_cast hlt
  have hkept : |x| = (|(n.tdiv d : ℚ)| + |(n.tmod d : ℚ)| / |(d : ℚ)|)
      / tenTo k := by
    rw [← abs_div_eq n hd, ← hx, abs_mul, abs_of_pos hten]
    field_simp
  have hq : |(n.tdiv d : ℚ) / tenTo k| = |(n.tdiv d : ℚ)| / tenTo k := by
    rw [abs_div, abs_of_pos hten]
  refine ⟨⟨n.tdiv d, rfl⟩, ?_, ?_, ?_⟩
  · -- truncation keeps the sign
    have hsplit : (n.tdiv d : ℚ) / tenTo k * x
        = (n.tdiv d : ℚ) * (n / d) / (tenTo k * tenTo k) := by
      rw [← hx]
      field_simp
    rw [hsplit]
    exact div_nonneg (tdiv_mul_div_nonneg n d) (by positivity)
  · rw [hq, hkept]
    gcongr
    exact le_add_of_nonneg_right (by positivity)
  · rw [hq, hkept, ← add_div]
    gcongr

/-- The cut is what it is defined to be. -/
theorem isCut_cut (k : Nat) (x : ℚ) : IsCut k x (cut k x) := by
  refine isCut_tdiv (Int.natCast_ne_zero.mpr (x * tenTo k).den_nz) ?_
  exact_mod_cast (Rat.num_div_den (x * tenTo k)).symm

/-- The magnitudes of two cuts of one number to as many digits are less than a
unit apart, so they are the same. -/
theorem IsCut.unique {k : Nat} {x p q : ℚ} (hp : IsCut k x p)
    (hq : IsCut k x q) : p = q := by
  obtain ⟨m, hm⟩ := hp.digits
  obtain ⟨n, hn⟩ := hq.digits
  have hten := tenTo_rat_pos k
  have hclose : ∀ {p q : ℚ} {m n : ℤ}, IsCut k x p → IsCut k x q →
      p = m / tenTo k →
      q = n / tenTo k → |m| ≤ |n| := by
    intro p q m n hp hq hm hn
    have hlt : |p| < |q| + 1 / tenTo k := hp.le.trans_lt hq.lt
    rw [hm, hn, abs_div, abs_div, abs_of_pos hten, ← add_div,
      div_lt_div_iff_of_pos_right hten] at hlt
    have hint : |m| < |n| + 1 := by exact_mod_cast hlt
    omega
  have habs : |m| = |n| :=
    le_antisymm (hclose hp hq hm hn) (hclose hq hp hn hm)
  rcases abs_eq_abs.mp habs with rfl | hneg
  · rw [hm, hn]
  · -- opposite magnitudes of one sign are zero
    have hopp : p = -q := by
      rw [hm, hn, hneg]
      push_cast
      ring
    have hzero : q * x = 0 := by
      have hsign := hp.sign
      rw [hopp] at hsign
      linarith [hq.sign]
    rcases mul_eq_zero.mp hzero with hq0 | hx0
    · rw [hopp, hq0, neg_zero]
    · have hp0 : p = 0 := abs_nonpos_iff.mp (by simpa [hx0] using hp.le)
      have hq0 : q = 0 := abs_nonpos_iff.mp (by simpa [hx0] using hq.le)
      rw [hp0, hq0]

/-- Nothing else is, so the two descriptions agree. -/
theorem isCut_iff {k : Nat} {x q : ℚ} : IsCut k x q ↔ q = cut k x := by
  constructor
  · exact fun h => h.unique (isCut_cut k x)
  · rintro rfl
    exact isCut_cut k x

/-- A number is cut to `k` digits by truncating any quotient of integers that
equals it once its point is moved. -/
theorem cut_eq_tdiv {k : Nat} {x : ℚ} {n d : ℤ} (hd : d ≠ 0)
    (hx : x * tenTo k = n / d) :
    cut k x = n.tdiv d / tenTo k :=
  (isCut_iff.mp (isCut_tdiv hd hx)).symm

/-- Cutting digits after the point leaves the part before it. -/
theorem IsCut.whole {k : Nat} {x q : ℚ} (h : IsCut k x q) :
    cut 0 q = cut 0 x := by
  obtain ⟨n, hn⟩ := h.digits
  have hp := isCut_cut 0 q
  obtain ⟨m, hm⟩ := hp.digits
  have hten := tenTo_rat_pos k
  simp only [tenTo_zero, Nat.cast_one, div_one] at hm
  have hlt : |q| < |(m : ℚ)| + 1 := by
    simpa [hm] using hp.lt
  -- both sides are multiples of a unit of the last digit, so a whole unit
  -- lies between them
  have hunit : |q| + 1 / tenTo k ≤ |(m : ℚ)| + 1 := by
    rw [hn, abs_div, abs_of_pos hten, div_lt_iff₀ hten] at hlt
    have hint : |n| < (|m| + 1) * tenTo k := by exact_mod_cast hlt
    have hsucc : (|n| : ℚ) + 1 ≤ (|(m : ℚ)| + 1) * tenTo k := by
      exact_mod_cast hint
    rw [hn, abs_div, abs_of_pos hten, ← add_div, div_le_iff₀ hten]
    exact hsucc
  refine isCut_iff.mp ⟨hp.digits, ?_, hp.le.trans h.le, ?_⟩
  · by_cases hq0 : q = 0
    · have hcut0 : cut 0 q = 0 :=
        abs_nonpos_iff.mp (by simpa [hq0] using hp.le)
      rw [hcut0, zero_mul]
    · have hprod : 0 ≤ (cut 0 q * x) * (q * q) := by
        have := mul_nonneg hp.sign h.sign
        linarith
      exact nonneg_of_mul_nonneg_left hprod (mul_self_pos.mpr hq0)
  · rw [hm]
    have hlast := h.lt.trans_le hunit
    simpa using hlast

theorem cut_zero_intCast (n : ℤ) : cut 0 (n : ℚ) = n :=
  (isCut_iff.mp ⟨⟨n, by simp⟩, mul_self_nonneg _, le_refl _, by simp⟩).symm

/-- A whole number that is a cut is one to no digits. -/
theorem IsCut.zero {k : Nat} {x : ℚ} {n : ℤ} (h : IsCut k x n) :
    IsCut 0 x n := by
  refine ⟨⟨n, by simp⟩, h.sign, h.le, h.lt.trans_le ?_⟩
  have hunit : (1 : ℚ) / tenTo k ≤ 1 := by
    rw [div_le_one (tenTo_rat_pos k)]
    exact_mod_cast tenTo_pos k
  simpa using hunit

-- ======================================================== values in range

/-- What is left of a number in range is in range when a factor is taken
out. -/
theorem InWideRange.of_mul {m c : Int} (hc : 0 < c) (h : InWideRange (m * c)) :
    InWideRange m := by
  unfold InWideRange at h ⊢
  rcases le_total 0 m with hm | hm
  · have hle : m ≤ m * c := le_mul_of_one_le_right hm hc
    omega
  · have hle : m * c ≤ m := by nlinarith
    omega

/-- A number that can be moved by some places can be moved by fewer. -/
theorem InWideRange.of_tenTo_le {m : Int} {s t : Nat} (hst : s ≤ t)
    (h : InWideRange (m * tenTo t)) : InWideRange (m * tenTo s) := by
  obtain ⟨c, rfl⟩ := Nat.exists_eq_add_of_le hst
  rw [tenTo_add, Nat.cast_mul, ← mul_assoc] at h
  exact h.of_mul (by exact_mod_cast tenTo_pos c)

namespace Decimal

/-- The number that a decimal stands for. -/
def value (d : Decimal) : ℚ := d.mantissa / tenTo d.scale

theorem one_le_maxScale : 1 ≤ maxScale := by decide

/-- A number has a mantissa of 128 bits at a scale that decimals have. -/
def Representable (x : ℚ) : Prop :=
  ∃ m : ℤ, ∃ s ≤ maxScale, InWideRange m ∧ x = m / tenTo s

/-- Taking zeros off the end does not change the value. -/
theorem value_reduce (m : Int) (s : Nat) :
    ((reduce m s).1 : ℚ) / tenTo (reduce m s).2 = m / tenTo s := by
  induction s generalizing m with
  | zero => rfl
  | succ s ih =>
      unfold reduce
      split
      · next hm =>
          have hten := (tenTo_rat_pos s).ne'
          have hdiv : (m : ℚ) = (m / 10 : ℤ) * 10 := by
            exact_mod_cast
              (Int.ediv_mul_cancel (Int.dvd_of_emod_eq_zero hm)).symm
          rw [ih, tenTo_succ, hdiv]
          push_cast
          field_simp
      · rfl

@[simp] theorem value_normal (m : Wide) (s : Nat) (h : s ≤ maxScale) :
    (normal m s h).value = m.val / tenTo s := value_reduce m.val s

/-- A reduced fraction has the fewest digits: every other way to write its
number puts zeros behind it. -/
theorem exists_zeros_of_reduced {m n : Int} {s t : Nat}
    (hreduced : s = 0 ∨ m % 10 ≠ 0) (h : (m : ℚ) / tenTo s = n / tenTo t) :
    ∃ c, t = s + c ∧ n = m * tenTo c := by
  rw [div_eq_div_iff (tenTo_rat_pos s).ne' (tenTo_rat_pos t).ne'] at h
  have hint : m * tenTo t = n * tenTo s := by exact_mod_cast h
  rcases Nat.le_total s t with hst | hts
  · obtain ⟨c, rfl⟩ := Nat.exists_eq_add_of_le hst
    rw [tenTo_add, Nat.cast_mul, mul_comm (tenTo s : ℤ), ← mul_assoc] at hint
    have hn : m * tenTo c = n :=
      Int.eq_of_mul_eq_mul_right (by exact_mod_cast (tenTo_pos s).ne') hint
    exact ⟨c, rfl, hn.symm⟩
  · obtain ⟨c, rfl⟩ := Nat.exists_eq_add_of_le hts
    rw [tenTo_add, Nat.cast_mul, mul_comm (tenTo t : ℤ), ← mul_assoc] at hint
    have hm : m = n * tenTo c :=
      Int.eq_of_mul_eq_mul_right (by exact_mod_cast (tenTo_pos t).ne') hint
    cases c with
    | zero => exact ⟨0, rfl, by simp [hm]⟩
    | succ c =>
        -- a shorter fraction would leave a zero at the end of the reduced one
        rw [tenTo_succ] at hm
        push_cast at hm
        rcases hreduced with h0 | h0
        · omega
        · exact absurd (by rw [hm, ← mul_assoc, Int.mul_emod_left]) h0

/-- A number is representable exactly if its mantissa is in range once the
zeros at the end of its fraction are dropped. -/
theorem representable_iff {m : Int} {s : Nat} (hs : s ≤ maxScale) :
    Representable (m / tenTo s) ↔ InWideRange (reduce m s).1 := by
  rw [← value_reduce m s]
  constructor
  · rintro ⟨w, t, -, hw, heq⟩
    obtain ⟨c, -, rfl⟩ := exists_zeros_of_reduced (reduce_reduced m s) heq
    exact hw.of_mul (by exact_mod_cast tenTo_pos c)
  · exact fun h => ⟨_, _, (reduce_scale_le m s).trans hs, h, rfl⟩

end Decimal

end StackMachine
