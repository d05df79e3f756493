/-
Refused sums, differences and products. Each operation refuses when a number
that it computes on the way leaves the range. For most operands that is
because the result has no representation; this module says for which it is
not.

A sum or difference computes both mantissas at the larger scale and combines
them there. There are two ways to lose a result that could be represented
(`LostTotal`): a mantissa leaves the range when it is moved, and the other
one brings the result back; or the result leaves the range only by a zero at
the end of its fraction. More than one digit is never at stake, and when a
mantissa was moved out of range the other one ends in a digit that is not
zero, so nothing can be dropped then.

A product computes the full product of the mantissas, before digits past the
28th are dropped, and may lose a result by any number of digits
(`LostProduct`).
-/
import StackMachine.Proofs.Decimal.Rational

namespace StackMachine.Decimal

variable {a b : Decimal} {f : Int → Int → Int}

-- ============================================== mantissas at a common scale

/-- The mantissa at a scale no smaller than the number's own, in range or
not. -/
def mantissaAt (d : Decimal) (s : Nat) : Int :=
  d.mantissa * tenTo (s - d.scale)

/-- A number is its mantissa at any scale no smaller than its own. -/
theorem value_eq_mantissaAt (d : Decimal) {s : Nat} (h : d.scale ≤ s) :
    d.value = d.mantissaAt s / tenTo s := by
  obtain ⟨c, rfl⟩ := Nat.exists_eq_add_of_le h
  have hs := (tenTo_rat_pos d.scale).ne'
  have hc := (tenTo_rat_pos c).ne'
  unfold value mantissaAt
  rw [Nat.add_sub_cancel_left, tenTo_add]
  push_cast
  field_simp

/-- A mantissa that is moved ends in zero, and one that is not is in range. -/
theorem inWideRange_or_mantissaAt_mod (d : Decimal) (s : Nat) :
    (s ≤ d.scale ∧ InWideRange (d.mantissaAt s))
      ∨ (d.scale < s ∧ d.mantissaAt s % 10 = 0) := by
  rcases Nat.lt_or_ge d.scale s with hless | hge
  · obtain ⟨c, rfl⟩ := Nat.exists_eq_add_of_lt hless
    refine .inr ⟨hless, ?_⟩
    rw [mantissaAt, show d.scale + c + 1 - d.scale
      = c + 1 by omega, tenTo_succ, Nat.cast_mul, ← mul_assoc]
    exact Int.mul_emod_left _ 10
  · refine .inl ⟨hge, ?_⟩
    rw [mantissaAt, Nat.sub_eq_zero_of_le hge, tenTo_zero,
      Nat.cast_one, mul_one]
    exact d.inWideRange

/-- At its own scale the last digit counts, if it is behind the point. -/
theorem mantissaAt_self_mod (d : Decimal) (h : 0 < d.scale) :
    d.mantissaAt d.scale % 10 ≠ 0 := by
  rw [mantissaAt, Nat.sub_self, tenTo_zero, Nat.cast_one, mul_one]
  exact d.reduced.resolve_left h.ne'

-- ================================================== sums and differences

/-- What sums and differences have in common. -/
structure Additive (f : Int → Int → Int) : Prop where
  /-- The result has at most one digit more. -/
  tenth : ∀ {x y : Int}, InWideRange x → InWideRange y →
    InWideRange (f x y / 10)
  /-- A result ends in zero only if both operands do or neither does. -/
  left : ∀ {x y : Int}, x % 10 = 0 → f x y % 10 = 0 → y % 10 = 0
  right : ∀ {x y : Int}, y % 10 = 0 → f x y % 10 = 0 → x % 10 = 0

/-- Tens are added to tens, and what is not a ten to what is one is not. -/
theorem additive_add : Additive (· + ·) where
  tenth hx hy := by
    unfold InWideRange at hx hy ⊢
    omega
  left hx h := by omega
  right hy h := by omega

/-- The same holds of differences. -/
theorem additive_sub : Additive (· - ·) where
  tenth hx hy := by
    unfold InWideRange at hx hy ⊢
    omega
  left hx h := by omega
  right hy h := by omega

def commonScale (a b : Decimal) : Nat := max a.scale b.scale

/-- Both mantissas stay in range on the way to the common scale. -/
def Aligned (a b : Decimal) : Prop :=
  InWideRange (a.mantissaAt (commonScale a b))
    ∧ InWideRange (b.mantissaAt (commonScale a b))

instance (a b : Decimal) : Decidable (Aligned a b) :=
  inferInstanceAs (Decidable (_ ∧ _))

/-- The mantissas combined at the common scale, in range or not. -/
def total (f : Int → Int → Int) (a b : Decimal) : Int :=
  f (a.mantissaAt (commonScale a b)) (b.mantissaAt (commonScale a b))

/-- A combination that is refused although its result has a representation. -/
inductive LostTotal (f : Int → Int → Int) (a b : Decimal) : Prop
  /-- A mantissa leaves the range on the way to the common scale, and the
  other one brings the result back. -/
  | moved (hout : ¬ Aligned a b) (hback : InWideRange (total f a b))
  /-- The result leaves the range by a zero at the end of its fraction. -/
  | padded (haligned : Aligned a b) (hout : ¬ InWideRange (total f a b))
      (hscale : 0 < commonScale a b) (hzero : total f a b % 10 = 0)

/-- Two numbers meet at a scale that both may have. -/
theorem commonScale_le (a b : Decimal) : commonScale a b ≤ maxScale :=
  Nat.max_le.mpr ⟨a.scale_le, b.scale_le⟩

/-- A combination is the total at the common scale, or is refused. -/
theorem combine?_eq (f : Int → Int → Int) (a b : Decimal) :
    combine? f a b =
      if h : Aligned a b ∧ InWideRange (total f a b) then
        some (normal ⟨total f a b, h.2⟩ (commonScale a b) (commonScale_le a b))
      else none := by
  have halignedTo : ∀ (d : Decimal) (s : Nat),
      d.alignedTo? s = Wide.ofInt? (d.mantissaAt s) :=
    fun _ _ => rfl
  unfold combine? Aligned total commonScale
  rw [halignedTo, halignedTo]
  by_cases ha : InWideRange (a.mantissaAt (max a.scale b.scale))
  · by_cases hb : InWideRange (b.mantissaAt (max a.scale b.scale))
    · simp only [Wide.ofInt?_of_inWideRange ha, Wide.ofInt?_of_inWideRange hb,
        ha, hb, true_and]
      unfold Wide.ofInt?
      split <;> rfl
    · simp [Wide.ofInt?_eq_none.mpr hb, hb]
  · simp [Wide.ofInt?_eq_none.mpr ha, ha]

/-- A sum or difference is refused exactly if a mantissa or the total leaves
the range at the common scale. -/
theorem combine?_eq_none_iff :
    combine? f a b = none ↔ ¬ (Aligned a b ∧ InWideRange (total f a b)) := by
  rw [combine?_eq, dite_eq_right_iff]
  exact forall_congr' fun _ => iff_of_false (Option.some_ne_none _) id

/-- A result that a moved mantissa keeps out of range ends in a digit of its
own. -/
theorem Additive.total_mod_ne_zero (hf : Additive f) (hout : ¬ Aligned a b) :
    total f a b % 10 ≠ 0 := by
  intro hzero
  rcases inWideRange_or_mantissaAt_mod a (commonScale a b)
    with ⟨ha, hina⟩ | ⟨ha, hza⟩
  · rcases inWideRange_or_mantissaAt_mod b (commonScale a b)
      with ⟨hb, hinb⟩ | ⟨hb, hzb⟩
    · exact hout ⟨hina, hinb⟩
    · have hscale : commonScale a b = a.scale := by
        unfold commonScale at hb ⊢
        omega
      have htail := hf.right hzb hzero
      rw [hscale] at htail
      exact a.mantissaAt_self_mod (by omega) htail
  · have hscale : commonScale a b = b.scale := by
      unfold commonScale at ha ⊢
      omega
    have htail := hf.left hza hzero
    rw [hscale] at htail
    exact b.mantissaAt_self_mod (by omega) htail

/-- What is refused although it is a number is refused exactly for a total
whose last digits are zeros. -/
theorem lostTotal_iff (hf : Additive f) :
    combine? f a b = none
      ∧ Representable (total f a b / tenTo (commonScale a b))
      ↔ LostTotal f a b := by
  rw [combine?_eq_none_iff, representable_iff (commonScale_le a b)]
  constructor
  · rintro ⟨hnone, hrep⟩
    by_cases haligned : Aligned a b
    · have hout : ¬ InWideRange (total f a b) := fun h => hnone ⟨haligned, h⟩
      -- a result that is reduced already is represented as it is
      by_cases hreduced : commonScale a b = 0 ∨ total f a b % 10 ≠ 0
      · rw [reduce_eq_self hreduced] at hrep
        exact absurd hrep hout
      · rw [not_or, not_not] at hreduced
        exact .padded haligned hout (Nat.pos_of_ne_zero hreduced.1) hreduced.2
    · rw [reduce_eq_self (.inr (hf.total_mod_ne_zero haligned))] at hrep
      exact .moved haligned hrep
  · rintro (⟨hout, hback⟩ | ⟨haligned, hout, hscale, hzero⟩)
    · exact ⟨fun h => hout h.1, reduce_inWideRange hback _⟩
    · refine ⟨fun h => hout h.2, ?_⟩
      obtain ⟨s, hs⟩ := Nat.exists_eq_succ_of_ne_zero hscale.ne'
      rw [hs, reduce, if_pos hzero]
      exact reduce_inWideRange (hf.tenth haligned.1 haligned.2) s

/-- A sum is the total of the mantissas at the common scale. -/
theorem value_add (a b : Decimal) :
    a.value + b.value = total (· + ·) a b / tenTo (commonScale a b) := by
  rw [value_eq_mantissaAt a (Nat.le_max_left a.scale b.scale),
    value_eq_mantissaAt b (Nat.le_max_right a.scale b.scale), ← add_div]
  exact_mod_cast rfl

/-- A difference is, too. -/
theorem value_sub (a b : Decimal) :
    a.value - b.value = total (· - ·) a b / tenTo (commonScale a b) := by
  rw [value_eq_mantissaAt a (Nat.le_max_left a.scale b.scale),
    value_eq_mantissaAt b (Nat.le_max_right a.scale b.scale), ← sub_div]
  exact_mod_cast rfl

-- =============================================================== products

/-- The product of the mantissas without the digits past the 28th behind the
point. -/
def productDigits (a b : Decimal) : Int :=
  (a.mantissa * b.mantissa).tdiv (tenTo (a.scale + b.scale - maxScale))

/-- How many digits of the product then stand behind the point. -/
def productScale (a b : Decimal) : Nat := min (a.scale + b.scale) maxScale

/-- The scale of a product is cut off where digits end. -/
theorem productScale_le (a b : Decimal) : productScale a b ≤ maxScale :=
  Nat.min_le_right _ _

/-- Cutting digits off a product in range keeps it there. -/
theorem inWideRange_productDigits (h : InWideRange (a.mantissa * b.mantissa)) :
    InWideRange (productDigits a b) := h.tdiv _

/-- A product that is refused although its result has a representation. -/
structure LostProduct (a b : Decimal) : Prop where
  out : ¬ InWideRange (a.mantissa * b.mantissa)
  back : InWideRange (reduce (productDigits a b) (productScale a b)).1

/-- The digits that a product is left with are those of its exact value. -/
theorem cut_mul (a b : Decimal) :
    cut maxScale (a.value * b.value)
      = productDigits a b / tenTo (productScale a b) := by
  have ha := (tenTo_rat_pos a.scale).ne'
  have hb := (tenTo_rat_pos b.scale).ne'
  have hvalue : a.value * b.value * tenTo (a.scale + b.scale)
      = ((a.mantissa * b.mantissa : ℤ) : ℚ) := by
    unfold value
    rw [tenTo_add]
    push_cast
    field_simp
  unfold productDigits productScale
  rcases Nat.le_total (a.scale + b.scale) maxScale with hle | hge
  · -- all digits of the product are kept
    obtain ⟨c, hc⟩ := Nat.exists_eq_add_of_le hle
    have hmoved : a.value * b.value * tenTo maxScale
        = ((a.mantissa * b.mantissa * tenTo c : ℤ) : ℚ) / (1 : ℤ) := by
      rw [hc, tenTo_add, Nat.cast_mul, ← mul_assoc, hvalue]
      push_cast
      rw [div_one]
    rw [cut_eq_tdiv one_ne_zero hmoved, Nat.sub_eq_zero_of_le hle,
      Nat.min_eq_left hle, tenTo_zero, Nat.cast_one, Int.tdiv_one,
      Int.tdiv_one, hc, tenTo_add]
    have hten := (tenTo_rat_pos (a.scale + b.scale)).ne'
    have hten' := (tenTo_rat_pos c).ne'
    push_cast
    field_simp
  · obtain ⟨c, hc⟩ := Nat.exists_eq_add_of_le hge
    have hten := (tenTo_rat_pos c).ne'
    have hmoved : a.value * b.value * tenTo maxScale
        = ((a.mantissa * b.mantissa : ℤ) : ℚ) / ((tenTo c : ℤ) : ℚ) := by
      rw [← hvalue, hc, tenTo_add]
      push_cast
      field_simp
    have hne : (tenTo c : ℤ) ≠ 0 := by exact_mod_cast (tenTo_pos c).ne'
    rw [cut_eq_tdiv hne hmoved, Nat.min_eq_right hge, hc,
      Nat.add_sub_cancel_left]

/-- A product is made of the digits that are kept, or is refused. -/
theorem mul?_eq (a b : Decimal) :
    a.mul? b =
      if h : InWideRange (a.mantissa * b.mantissa) then
        some (normal ⟨_, inWideRange_productDigits h⟩ (productScale a b)
          (productScale_le a b))
      else none := by
  unfold mul?
  by_cases hin : InWideRange (a.mantissa * b.mantissa)
  · rw [dif_pos hin, Wide.ofInt?_of_inWideRange hin]
    have hscale : ((a.scale : Int) + b.scale).toNat = a.scale + b.scale := by
      omega
    simp only [rescale?, hscale]
    rw [if_neg (by omega)]
    unfold productDigits productScale
    by_cases hle : a.scale + b.scale ≤ maxScale
    · simp only [dif_pos hle, Nat.min_eq_left hle,
        Nat.sub_eq_zero_of_le hle, tenTo_zero, Nat.cast_one, Int.tdiv_one]
    · simp only [dif_neg hle, Nat.min_eq_right (Nat.le_of_not_le hle)]
  · rw [dif_neg hin, Wide.ofInt?_eq_none.mpr hin]

/-- A product is refused exactly if the product of the mantissas leaves the
range, before any digit is cut off. -/
theorem mul?_eq_none_iff :
    a.mul? b = none ↔ ¬ InWideRange (a.mantissa * b.mantissa) := by
  rw [mul?_eq, dite_eq_right_iff]
  exact forall_congr' fun _ => iff_of_false (Option.some_ne_none _) id

/-- What is refused although it is a number is refused exactly for the digits
that would be cut off. -/
theorem lostProduct_iff :
    a.mul? b = none ∧ Representable (cut maxScale (a.value * b.value))
      ↔ LostProduct a b := by
  rw [mul?_eq_none_iff, cut_mul, representable_iff (productScale_le a b)]
  exact ⟨fun h => ⟨h.1, h.2⟩, fun h => ⟨h.out, h.back⟩⟩

-- ============================================================== refusals

/-- An operation is refused only for results without a representation, except
for exactly the operands whose result is lost on the way. -/
theorem refused_iff (a b : Decimal) :
    ((a.add? b = none → ¬ Representable (a.value + b.value))
      ↔ ¬ LostTotal (· + ·) a b) ∧
    ((a.sub? b = none → ¬ Representable (a.value - b.value))
      ↔ ¬ LostTotal (· - ·) a b) ∧
    ((a.mul? b = none → ¬ Representable (cut maxScale (a.value * b.value)))
      ↔ ¬ LostProduct a b) := by
  rw [value_add, value_sub, ← not_and, ← not_and, ← not_and]
  exact ⟨not_congr (lostTotal_iff additive_add),
    not_congr (lostTotal_iff additive_sub), not_congr lostProduct_iff⟩

/-- A third, to 28 digits. -/
def third : Decimal :=
  ⟨3333333333333333333333333333, maxScale, by decide, Nat.le_refl _, by decide⟩

/-- A number that leaves the range when it is moved by a place. -/
def twenty : Decimal :=
  ⟨20000000000000000000000000000000000000, 0,
    by decide, Nat.zero_le _, by decide⟩

/-- A little less than seventeen of the same, with a digit behind the
point. -/
def seventeen : Decimal :=
  ⟨169999999999999999999999999999999999999, 1,
    by decide, one_le_maxScale, by decide⟩

/-- A product and a difference that have representations are refused. -/
theorem refused_representable :
    (third.mul? third = none
      ∧ Representable (cut maxScale (third.value * third.value))) ∧
    (twenty.sub? seventeen = none
      ∧ Representable (twenty.value - seventeen.value)) := by
  refine ⟨⟨by
    decide +kernel, 1111111111111111111111111110, 28, Nat.le_refl _, by
      decide, ?_⟩,
    ⟨by decide +kernel, 30000000000000000000000000000000000001, 1, by decide,
      by decide, ?_⟩⟩
  · decide +kernel
  · decide +kernel

end StackMachine.Decimal
