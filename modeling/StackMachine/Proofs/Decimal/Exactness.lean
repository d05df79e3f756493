/-
Sums, differences and products that are not refused. A sum or difference is
the exact one, and a product is the exact one cut to 28 digits, since the
result of each is the number that the combined mantissas stand for, and
dropping zeros keeps it (`combine?_eq_some_iff`, `mul?_eq_some_iff`).

A difference undoes a sum, and a sum undoes a difference. The way back may be
taken at a smaller scale, because the sum may have lost zeros at its end, but
never at a larger one: a reduced number has the fewest digits. So each
mantissa on the way back is one from the way there with zeros dropped, and
stays in range (`inWideRange_of_fewer_digits`).
-/
import StackMachine.Proofs.Decimal.NormalForm
import StackMachine.Proofs.Decimal.Refusal

namespace StackMachine.Decimal

variable {a b r s : Decimal} {f g : Int → Int → Int}

-- ================================================================ results

/-- A combination is the number that the total stands for, if nothing on the
way leaves the range. -/
theorem combine?_eq_some_iff :
    combine? f a b = some r ↔
      (Aligned a b ∧ InWideRange (total f a b)) ∧
        r.value = total f a b / tenTo (commonScale a b) := by
  rw [combine?_eq]
  exact dite_normal_eq_some_iff

/-- A product is the exact one cut to 28 digits, if the product of the
mantissas is in range. -/
theorem mul?_eq_some_iff :
    a.mul? b = some r ↔
      InWideRange (a.mantissa * b.mantissa)
        ∧ r.value = cut maxScale (a.value * b.value) := by
  rw [mul?_eq, cut_mul]
  exact dite_normal_eq_some_iff

/-- Sums and differences are exact and products are exact to 28 digits, and
each is there exactly if no mantissa on the way leaves the range. -/
theorem results_exact (a b r : Decimal) :
    (a.add? b = some r ↔
      (Aligned a b ∧ InWideRange (total (· + ·) a b))
        ∧ r.value = a.value + b.value) ∧
    (a.sub? b = some r ↔
      (Aligned a b ∧ InWideRange (total (· - ·) a b))
        ∧ r.value = a.value - b.value) ∧
    (a.mul? b = some r ↔
      InWideRange (a.mantissa * b.mantissa)
        ∧ r.value = cut maxScale (a.value * b.value)) := by
  rw [value_add, value_sub]
  exact ⟨combine?_eq_some_iff, combine?_eq_some_iff, mul?_eq_some_iff⟩

-- =========================================================== the way back

/-- A number in range stays in range when it is written with fewer digits. -/
theorem inWideRange_of_fewer_digits {m n : Int} {s t : Nat} (hst : s ≤ t)
    (h : (m : ℚ) / tenTo s = n / tenTo t) (hn : InWideRange n) :
    InWideRange m := by
  obtain ⟨c, rfl⟩ := Nat.exists_eq_add_of_le hst
  have hs := (tenTo_rat_pos s).ne'
  have hc := (tenTo_rat_pos c).ne'
  have hzeros : n = m * tenTo c := by
    rw [tenTo_add, Nat.cast_mul] at h
    field_simp at h
    exact_mod_cast h.symm
  rw [hzeros] at hn
  exact hn.of_mul (by exact_mod_cast tenTo_pos c)

/-- The way back is taken at no larger scale. -/
theorem commonScale_back_le
    (hs : s.value = total f a b / tenTo (commonScale a b)) :
    commonScale s b ≤ commonScale a b := by
  obtain ⟨c, hc, -⟩ := exists_zeros_of_reduced s.reduced hs
  have hb : b.scale ≤ commonScale a b := Nat.le_max_right _ _
  exact Nat.max_le.mpr ⟨by omega, hb⟩

/-- If `g` takes `s` back to `a`, nothing leaves the range on the way. -/
theorem fits_back (haligned : Aligned a b) (hin : InWideRange (total f a b))
    (hs : s.value = total f a b / tenTo (commonScale a b))
    (ha : a.value = total g s b / tenTo (commonScale s b)) :
    Aligned s b ∧ InWideRange (total g s b) := by
  have hle := commonScale_back_le hs
  have ha_there := value_eq_mantissaAt a (Nat.le_max_left a.scale b.scale)
  have hb_there := value_eq_mantissaAt b (Nat.le_max_right a.scale b.scale)
  have hs_back := value_eq_mantissaAt s (Nat.le_max_left s.scale b.scale)
  have hb_back := value_eq_mantissaAt b (Nat.le_max_right s.scale b.scale)
  -- the three mantissas of the way back stand for the numbers `s`, `b` and
  -- `a` of the way there
  refine ⟨⟨?_, ?_⟩, ?_⟩
  · exact inWideRange_of_fewer_digits hle (hs_back.symm.trans hs) hin
  · exact inWideRange_of_fewer_digits hle
      (hb_back.symm.trans hb_there) haligned.2
  · exact inWideRange_of_fewer_digits hle (ha.symm.trans ha_there) haligned.1

/-- A number is a sum exactly if taking one summand away leaves the other. -/
theorem add?_eq_some_iff_sub?_eq_some (a b s : Decimal) :
    a.add? b = some s ↔ s.sub? b = some a := by
  constructor
  · intro h
    obtain ⟨⟨haligned, hin⟩, hs⟩ := combine?_eq_some_iff.mp h
    have ha : a.value = total (· - ·) s b / tenTo (commonScale s b) := by
      rw [← value_sub, hs, ← value_add, add_sub_cancel_right]
    exact combine?_eq_some_iff.mpr ⟨fits_back haligned hin hs ha, ha⟩
  · intro h
    obtain ⟨⟨haligned, hin⟩, ha⟩ := combine?_eq_some_iff.mp h
    have hs : s.value = total (· + ·) a b / tenTo (commonScale a b) := by
      rw [← value_add, ha, ← value_sub, sub_add_cancel]
    exact combine?_eq_some_iff.mpr ⟨fits_back haligned hin ha hs, hs⟩

end StackMachine.Decimal
