/-
Quotients. Division moves the dividend's point to the right as far as the
range allows, truncates the quotient of the mantissas, and moves the point
back. As long as the dividend gets past the divisor's own scale, the quotient
has at least its units, and what is dropped stands behind the point.

A dividend near the end of the range may not get there. The point of the
truncated quotient is then moved to the right, which puts zeros where the
quotient has other digits before its point. `div?_isCut_iff` says exactly when
a quotient is right: the dividend gets to the divisor's scale, or what was
dropped comes to less than a unit (`KeepsUnits`).

With the whole widening in range there is nothing to go wrong: `div?_full`
says that the quotient is the one cut to 28 digits, and is refused only if
that one has no representation. The one truncated quotient of two numbers in
range that leaves the range is the least mantissa divided by minus one, and
it does not end in a zero.
-/
import StackMachine.Proofs.Decimal.Rational

namespace StackMachine.Decimal

variable {a b q : Decimal}

-- =============================================== widening and moving back

/-- A number is moved by the most places, up to a bound, that keep it in
range. -/
theorem widen?_spec {m : Int} {n : Nat} {w : Wide} {t : Nat}
    (h : widen? m n = some (w, t)) :
    w.val = m * tenTo t ∧ t ≤ n
      ∧ (t = n ∨ ¬ InWideRange (m * tenTo (t + 1))) := by
  induction n with
  | zero =>
      obtain ⟨w', hw, heq⟩ := Option.map_eq_some_iff.mp h
      obtain ⟨rfl, rfl⟩ := Prod.mk.inj heq
      exact ⟨by simp [Wide.val_of_ofInt? hw], Nat.le_refl _, .inl rfl⟩
  | succ n ih =>
      unfold widen? at h
      split at h
      · next w' hw =>
          obtain ⟨rfl, rfl⟩ := Prod.mk.inj (Option.some.inj h)
          exact ⟨Wide.val_of_ofInt? hw, Nat.le_refl _, .inl rfl⟩
      · next hnone =>
          obtain ⟨hval, hle, hwidest⟩ := ih h
          refine ⟨hval, Nat.le_succ_of_le hle, .inr ?_⟩
          rcases hwidest with rfl | hout
          · exact Wide.ofInt?_eq_none.mp hnone
          · exact hout

/-- A number that can be moved by all places is. -/
theorem widen?_full {m : Int} {n : Nat} (h : InWideRange (m * tenTo n)) :
    ∃ w, widen? m n = some (w, n) ∧ w.val = m * tenTo n := by
  cases n with
  | zero =>
      have hm : InWideRange m := by simpa using h
      exact ⟨⟨m, hm⟩, by simp [widen?, Wide.ofInt?_of_inWideRange hm], by simp⟩
  | succ n =>
      exact ⟨⟨_, h⟩, by simp [widen?, Wide.ofInt?_of_inWideRange h], rfl⟩

/-- A scale that is allowed needs no moving. -/
theorem rescale?_natCast (m : Wide) {s : Nat} (h : s ≤ maxScale) :
    rescale? m s = some (normal m s h) := by
  unfold rescale?
  rw [if_neg (by omega)]
  simp only [Int.toNat_natCast, h, dif_pos]

/-- Moving the point keeps the value unless there would be more than 28
digits behind it. -/
theorem value_rescale? {m : Wide} {u v : Nat}
    (h : rescale? m ((u : Int) - v) = some q) (hle : u ≤ maxScale + v) :
    q.value = m.val * tenTo v / tenTo u := by
  have hu := (tenTo_rat_pos u).ne'
  have hv := (tenTo_rat_pos v).ne'
  rcases Nat.lt_or_ge u v with hless | hge
  · obtain ⟨c, rfl⟩ := Nat.exists_eq_add_of_le hless.le
    unfold rescale? at h
    rw [if_pos (by omega), show (-((u : Int) - (u + c : Nat))).toNat
      = c by omega] at h
    obtain ⟨w, hw, rfl⟩ := Option.map_eq_some_iff.mp h
    rw [value_normal, Wide.val_of_ofInt? hw, tenTo_add, tenTo_zero]
    push_cast
    field_simp
  · obtain ⟨c, rfl⟩ := Nat.exists_eq_add_of_le hge
    rw [show ((v + c : Nat) : Int) - v
      = (c : Nat) by omega, rescale?_natCast m (by omega)] at h
    rw [← Option.some.inj h, value_normal, tenTo_add]
    push_cast
    field_simp

-- ========================================================= the quotient

/-- The dividend, and the divisor, as integers. -/
theorem value_div (a b : Decimal) (t : Nat) :
    a.value / b.value * tenTo (a.scale + t)
      = ((a.mantissa * tenTo t : ℤ) : ℚ) / b.mantissa * tenTo b.scale := by
  have ha := (tenTo_rat_pos a.scale).ne'
  unfold value
  rw [tenTo_add]
  push_cast
  field_simp

/-- The dividend has `k` more digits after its point than the divisor
once it is moved. -/
theorem value_div_long {t k : Nat} (hk : a.scale + t = b.scale + k) :
    a.value / b.value * tenTo k = ((a.mantissa * tenTo t : ℤ) : ℚ)
      / b.mantissa := by
  have hb := (tenTo_rat_pos b.scale).ne'
  have hdiv := value_div a b t
  rw [hk, tenTo_add, Nat.cast_mul, mul_left_comm, mul_comm] at hdiv
  exact mul_right_cancel₀ hb hdiv

/-- The divisor has `j` more digits after its point than the dividend even
then. -/
theorem value_div_short {t j : Nat} (hj : b.scale = a.scale + t + j) :
    a.value / b.value = ((a.mantissa * tenTo t : ℤ) : ℚ) / b.mantissa
      * tenTo j := by
  have hten := (tenTo_rat_pos (a.scale + t)).ne'
  have hdiv := value_div a b t
  rw [hj, tenTo_add (a.scale + t), Nat.cast_mul, mul_left_comm,
    mul_comm] at hdiv
  exact mul_left_cancel₀ hten hdiv

/-- A quotient that was found by moving the dividend's point by `t` places. -/
structure Divided (a b q : Decimal) (t : Nat) : Prop where
  ne_zero : b.mantissa ≠ 0
  le : t ≤ maxScale + b.scale - a.scale
  inRange : InWideRange (a.mantissa * tenTo t)
  /-- There are no more places to move by, or not in range. -/
  widest : t = maxScale + b.scale - a.scale
    ∨ ¬ InWideRange (a.mantissa * tenTo (t + 1))
  value : q.value
    = (a.mantissa * tenTo t).tdiv b.mantissa * tenTo b.scale
      / tenTo (a.scale + t)

/-- A quotient that is returned was computed with some number of places
moved. -/
theorem exists_divided (h : a.div? b = some q) : ∃ t, Divided a b q t := by
  have ha := a.scale_le
  unfold div? at h
  split at h
  · cases h
  · next hzero =>
      have hb : b.mantissa ≠ 0 := by simpa [isZero] using hzero
      split at h
      · cases h
      · next dividend t hwiden =>
          obtain ⟨hval, hle, hwidest⟩ := widen?_spec hwiden
          split at h
          · cases h
          · next quotient hquotient =>
              refine ⟨t, hb, hle, hval ▸ dividend.property, hwidest, ?_⟩
              rw [← Nat.cast_add] at h
              rw [value_rescale? h (by omega),
                Wide.val_of_ofInt? hquotient, hval]

/-- The dividend gets to the scale of the divisor within the range. -/
def ReachesScale (a b : Decimal) : Prop :=
  InWideRange (a.mantissa * tenTo (b.scale - a.scale))

/-- Division keeps all digits before the point: the dividend gets to the scale
of the divisor within the range, or what is left over at the widest that it
gets comes to less than a unit. -/
def KeepsUnits (a b : Decimal) : Prop :=
  ReachesScale a b ∨
    ∃ t, InWideRange (a.mantissa * tenTo t)
      ∧ ¬ InWideRange (a.mantissa * tenTo (t + 1)) ∧
      ((a.mantissa * tenTo t).tmod b.mantissa).natAbs * tenTo
      (b.scale - a.scale - t)
        < b.mantissa.natAbs

namespace Divided

variable {t : Nat}

/-- A dividend that does not get to the scale of the divisor was stopped by
the range. -/
theorem out_of_short (h : Divided a b q t) (hshort : a.scale + t < b.scale) :
    ¬ InWideRange (a.mantissa * tenTo (t + 1)) := by
  have ha := a.scale_le
  rcases h.widest with hfull | hout
  · omega
  · exact hout

/-- Whether the dividend can be moved to the scale of the divisor is told by
how far it was moved. -/
theorem reachesScale_iff (h : Divided a b q t) :
    ReachesScale a b ↔ b.scale ≤ a.scale + t := by
  constructor
  · intro hreach
    by_contra hshort
    exact h.out_of_short (by omega) (hreach.of_tenTo_le (by omega))
  · exact fun hle => h.inRange.of_tenTo_le (by omega)

/-- A dividend that gets to the scale of the divisor is divided with digits
behind the point. -/
theorem isCut (h : Divided a b q t) {k : Nat}
    (hk : a.scale + t = b.scale + k) :
    IsCut k (a.value / b.value) q.value := by
  have hb := (tenTo_rat_pos b.scale).ne'
  have hvalue : q.value = ((a.mantissa * tenTo t).tdiv b.mantissa : ℚ)
      / tenTo k := by
    rw [h.value, hk, tenTo_add]
    push_cast
    field_simp
  rw [hvalue]
  exact isCut_tdiv h.ne_zero (value_div_long hk)

/-- A dividend that does not get there is divided into units of `10 ^ j`. -/
theorem value_short (h : Divided a b q t) {j : Nat}
    (hj : b.scale = a.scale + t + j) :
    q.value
      = (((a.mantissa * tenTo t).tdiv b.mantissa * tenTo j : ℤ) : ℚ) := by
  have hten := (tenTo_rat_pos (a.scale + t)).ne'
  rw [h.value, hj, tenTo_add (a.scale + t)]
  push_cast
  field_simp

/-- What such a quotient drops is what is left over, in the same units. -/
theorem abs_short (h : Divided a b q t) {j : Nat}
    (hj : b.scale = a.scale + t + j) :
    |a.value / b.value| = |q.value|
      + |((a.mantissa * tenTo t).tmod b.mantissa : ℚ)| / |(b.mantissa : ℚ)|
        * tenTo j := by
  rw [value_div_short hj, h.value_short hj, abs_mul, abs_div_eq _ h.ne_zero,
    Int.cast_mul, abs_mul, add_mul, Int.cast_natCast,
    abs_of_pos (tenTo_rat_pos j)]

/-- A quotient that was moved back is cut to the units exactly if what was
left over would not have counted for one. -/
theorem isCut_zero_iff (h : Divided a b q t) {j : Nat}
    (hj : b.scale = a.scale + t + j) :
    IsCut 0 (a.value / b.value) q.value
      ↔ ((a.mantissa * tenTo t).tmod b.mantissa).natAbs * tenTo j
        < b.mantissa.natAbs := by
  have hd : (0 : ℚ) < |(b.mantissa : ℚ)| :=
    abs_pos.mpr (Int.cast_ne_zero.mpr h.ne_zero)
  -- the other conditions of a cut hold of every truncation
  have hlt : |a.value / b.value| < |q.value| + 1
      ↔ ((a.mantissa * tenTo t).tmod b.mantissa).natAbs * tenTo j
        < b.mantissa.natAbs := by
    rw [h.abs_short hj, add_lt_add_iff_left, div_mul_eq_mul_div, div_lt_one hd,
      ← Int.cast_abs, ← Int.cast_abs, Int.abs_eq_natAbs, Int.abs_eq_natAbs]
    exact_mod_cast Iff.rfl
  rw [← hlt]
  constructor
  · intro hcut
    simpa using hcut.lt
  · intro hunit
    have hdigits : ∃ n : ℤ, q.value = n / tenTo 0 :=
      ⟨_, (h.value_short hj).trans (by rw [tenTo_zero, Nat.cast_one, div_one])⟩
    refine ⟨hdigits, ?_, ?_, by simpa using hunit⟩
    · have hsign := tdiv_mul_div_nonneg (a.mantissa * tenTo t) b.mantissa
      rw [h.value_short hj, value_div_short hj, Int.cast_mul, Int.cast_natCast,
        mul_mul_mul_comm]
      exact mul_nonneg hsign (by positivity)
    · rw [h.abs_short hj]
      exact le_add_of_nonneg_right (by positivity)

/-- The dividend got as far as the range allows, so what is left over is what
counts. -/
theorem keepsUnits_iff (h : Divided a b q t) {j : Nat}
    (hj : b.scale = a.scale + t + j) (hpos : 0 < j) :
    KeepsUnits a b
      ↔ ((a.mantissa * tenTo t).tmod b.mantissa).natAbs * tenTo j
        < b.mantissa.natAbs := by
  have hshort : ¬ ReachesScale a b := fun hreach => by
    have := h.reachesScale_iff.mp hreach
    omega
  have hplaces : b.scale - a.scale - t = j := by omega
  constructor
  · rintro (hreach | ⟨t', hin, hout, hlt⟩)
    · exact absurd hreach hshort
    · have heq : t' = t := by
        by_contra hne
        rcases Nat.lt_or_gt_of_ne hne with hless | hmore
        · exact hout (h.inRange.of_tenTo_le hless)
        · exact h.out_of_short (by omega) (hin.of_tenTo_le hmore)
      rw [heq, hplaces] at hlt
      exact hlt
  · intro hlt
    exact .inr ⟨t, h.inRange, h.out_of_short (by omega), by rwa [hplaces]⟩

end Divided

/-- A quotient, when there is one, is the exact one cut toward zero to at most
28 digits exactly if division keeps the units, and only then is its part
before the point right. -/
theorem div?_isCut_iff (h : a.div? b = some q) :
    ((∃ k ≤ maxScale, IsCut k (a.value / b.value) q.value) ↔ KeepsUnits a b) ∧
      (cut 0 q.value = cut 0 (a.value / b.value) ↔ KeepsUnits a b) := by
  obtain ⟨t, hdivided⟩ := exists_divided h
  rcases Nat.lt_or_ge (a.scale + t) b.scale with hless | hge
  · obtain ⟨j, hj⟩ := Nat.exists_eq_add_of_le hless.le
    have hwhole := hdivided.value_short hj
    rw [hdivided.keepsUnits_iff hj (by omega), ← hdivided.isCut_zero_iff hj]
    constructor
    · constructor
      · rintro ⟨k, -, hcut⟩
        rw [hwhole] at hcut ⊢
        exact hcut.zero
      · exact fun hcut => ⟨0, Nat.zero_le _, hcut⟩
    · rw [isCut_iff, hwhole, cut_zero_intCast]
  · obtain ⟨k, hk⟩ := Nat.exists_eq_add_of_le hge
    have hcut := hdivided.isCut hk
    have hkeeps : KeepsUnits a b := .inl (hdivided.reachesScale_iff.mpr hge)
    have hle := hdivided.le
    have ha := a.scale_le
    exact ⟨iff_of_true ⟨k, by omega, hcut⟩ hkeeps,
      iff_of_true hcut.whole hkeeps⟩

/-- The largest power of ten in range. -/
def largestPower : Decimal :=
  ⟨100000000000000000000000000000000000000, 0,
    by decide, Nat.zero_le _, by decide⟩

def eightTenths : Decimal := ⟨8, 1, by decide, one_le_maxScale, by decide⟩

def sevenTenths : Decimal := ⟨7, 1, by decide, one_le_maxScale, by decide⟩

/-- The dividend does not get to the scale of the divisor, but eight divides
it without a rest. -/
theorem largestPower_div_eightTenths :
    ∃ q, largestPower.div? eightTenths = some q
      ∧ ∃ k ≤ maxScale,
        IsCut k (largestPower.value / eightTenths.value) q.value := by
  have hdiv : largestPower.div? eightTenths
      = some ⟨125000000000000000000000000000000000000, 0,
        by decide, by decide, by decide⟩ := by
    decide +kernel
  have hkeeps : KeepsUnits largestPower eightTenths :=
    .inr ⟨0, by decide +kernel⟩
  exact ⟨_, hdiv, (div?_isCut_iff hdiv).1.mpr hkeeps⟩

/-- Seven leaves a rest, and the quotient has a zero where its units should
be. -/
theorem largestPower_div_sevenTenths :
    ∃ q, largestPower.div? sevenTenths = some q
      ∧ cut 0 q.value = 142857142857142857142857142857142857140
      ∧ cut 0 (largestPower.value / sevenTenths.value)
        = 142857142857142857142857142857142857142
      ∧ ¬ ∃ k ≤ maxScale,
        IsCut k (largestPower.value / sevenTenths.value) q.value := by
  have hwhole : cut 0 (largestPower.value / sevenTenths.value)
      = 142857142857142857142857142857142857142 := by decide +kernel
  refine ⟨⟨142857142857142857142857142857142857140, 0,
    by decide, by decide, by decide⟩,
    by decide +kernel, by decide +kernel, hwhole, ?_⟩
  rintro ⟨k, -, hcut⟩
  have hsame := hcut.whole
  rw [hwhole] at hsame
  exact absurd hsame (by decide +kernel)

-- ======================================================= full precision

/-- Truncating a quotient of numbers in range leaves the range in one case
only. -/
theorem tdiv_of_not_inWideRange {n d : Int} (h : InWideRange n)
    (hout : ¬ InWideRange (n.tdiv d)) :
    n.tdiv d = 0x80000000000000000000000000000000 := by
  have habs : (n.tdiv d).natAbs ≤ n.natAbs := by
    rw [Int.natAbs_tdiv]
    exact Nat.div_le_self _ _
  unfold InWideRange at h hout
  omega

/-- A quotient whose dividend can be moved by all places that 28 digits ask
for is the exact one cut toward zero to 28 digits, and is refused exactly if
that has no representation. -/
theorem div?_full (hb : b.isZero = false)
    (h : InWideRange (a.mantissa * tenTo (maxScale + b.scale - a.scale))) :
    (Representable (cut maxScale (a.value / b.value)) →
      ∃ q, a.div? b = some q ∧ q.value = cut maxScale (a.value / b.value)) ∧
    (¬ Representable (cut maxScale (a.value / b.value)) →
      a.div? b = none) := by
  have ha := a.scale_le
  have hmantissa : b.mantissa ≠ 0 := by simpa [isZero] using hb
  obtain ⟨t, ht⟩ : ∃ t, t = maxScale + b.scale - a.scale := ⟨_, rfl⟩
  rw [← ht] at h
  obtain ⟨w, hwiden, hw⟩ := widen?_full h
  have hcut : cut maxScale (a.value / b.value)
      = (a.mantissa * tenTo t).tdiv b.mantissa / tenTo maxScale :=
    cut_eq_tdiv hmantissa (value_div_long (by omega))
  have hscale : (a.scale : Int) + t - b.scale = (maxScale : Nat) := by omega
  by_cases hin : InWideRange ((a.mantissa * tenTo t).tdiv b.mantissa)
  · have hdiv : a.div? b
        = some (normal ⟨_, hin⟩ maxScale (Nat.le_refl _)) := by
      unfold div?
      rw [hb, if_neg Bool.false_ne_true, ← ht, hwiden]
      simp only [hw, Wide.ofInt?_of_inWideRange hin, hscale]
      exact rescale?_natCast _ _
    rw [hcut]
    refine ⟨fun _ => ⟨_, hdiv, value_normal _ _ _⟩, fun hnot => ?_⟩
    exact absurd ⟨_, _, Nat.le_refl _, hin, rfl⟩ hnot
  · have hnone : a.div? b = none := by
      unfold div?
      rw [hb, if_neg Bool.false_ne_true, ← ht, hwiden]
      simp only [hw, Wide.ofInt?_eq_none.mpr hin]
    -- only the least mantissa by minus one leaves the range
    have hleast := tdiv_of_not_inWideRange h hin
    refine ⟨fun hrep => ?_, fun _ => hnone⟩
    rw [hcut, hleast, representable_iff (Nat.le_refl _),
      reduce_eq_self (.inr (by decide))] at hrep
    exact absurd hrep (by decide)

def one : Decimal := ofInt64 1

def minusOne : Decimal := ofInt64 (-1)

def three : Decimal := ofInt64 3

/-- The least mantissa, with 28 of its digits behind the point. -/
def leastFraction : Decimal :=
  ⟨-0x80000000000000000000000000000000, maxScale,
    by decide, Nat.le_refl _, by decide⟩

/-- A third has 28 digits, and the opposite of the least mantissa is
refused. -/
theorem thirds_and_least_div :
    (∃ q, one.div? three = some q
      ∧ q.value = cut maxScale (one.value / three.value))
      ∧ leastFraction.div? minusOne = none := by
  constructor
  · have hcut : cut maxScale (one.value / three.value)
        = 3333333333333333333333333333 / tenTo maxScale := by decide +kernel
    refine (div?_full (by decide) (by decide +kernel)).1 ?_
    exact ⟨3333333333333333333333333333, maxScale, Nat.le_refl _,
      by decide, hcut⟩
  · refine (div?_full (by decide) (by decide +kernel)).2 ?_
    have hcut : cut maxScale (leastFraction.value / minusOne.value)
        = (0x80000000000000000000000000000000 : ℤ) / tenTo maxScale := by
          decide +kernel
    rw [hcut, representable_iff (Nat.le_refl _)]
    decide +kernel

end StackMachine.Decimal
