/-
The normal form of decimals. Of all ways to write a number as a mantissa and a
scale one has the fewest digits behind the point, and it is the one in which
the fraction does not end in zero (`reduce_eq_iff`). Numbers are kept in that
form, so two of them are equal exactly if they stand for the same number
(`value_inj`).

Numbers come from mantissas and scales, from machine integers, from literals
and from arithmetic on such numbers. `obtained_normal_form` says which fields
they can have: a mantissa in range, a scale of at most 28, and nothing to
drop.
-/
import StackMachine.Proofs.Decimal.Rational
import StackMachine.Value

namespace StackMachine.Decimal

-- ================================================== one number, one form

/-- Dropping zeros leads to the fields of a number from every way to write it,
and from no way to write another one. -/
theorem reduce_eq_iff (d : Decimal) (m : Int) (s : Nat) :
    reduce m s = (d.mantissa, d.scale) ↔ d.value = m / tenTo s := by
  rw [← value_reduce m s]
  constructor
  · intro h
    rw [h]
    rfl
  · intro h
    -- each of the two forms is reduced, so neither has more
    -- digits than the other
    obtain ⟨c, hscale, hmantissa⟩ := exists_zeros_of_reduced d.reduced h
    obtain ⟨c', hscale', -⟩ :=
      exists_zeros_of_reduced (reduce_reduced m s) h.symm
    have hzero : c = 0 := by omega
    rw [hzero, tenTo_zero, Nat.cast_one, mul_one] at hmantissa
    rw [hzero, Nat.add_zero] at hscale
    exact Prod.ext hmantissa hscale

/-- Numbers are equal exactly if they stand for the same number. -/
theorem value_inj {d e : Decimal} : d.value = e.value ↔ d = e := by
  constructor
  · intro h
    have hfields := (reduce_eq_iff d e.mantissa e.scale).mpr h
    rw [reduce_eq_self e.reduced] at hfields
    obtain ⟨hmantissa, hscale⟩ := Prod.mk.inj hfields
    rw [← normal_self d d.scale_le (m := d.wide) rfl rfl]
    exact normal_self e _ hmantissa.symm hscale.symm
  · exact congrArg value

/-- A number is the normal form of a mantissa and a scale exactly if it has
their value. -/
theorem normal_eq_iff {m : Wide} {s : Nat} {hs : s ≤ maxScale} {d : Decimal} :
    normal m s hs = d ↔ d.value = m.val / tenTo s := by
  rw [← value_inj, value_normal, eq_comm]

/-- What is made of a mantissa and a scale under a condition, and refused
without it. -/
theorem dite_normal_eq_some_iff {p : Prop} [Decidable p] {m : Int} {s : Nat}
    {hm : p → InWideRange m} {hs : p → s ≤ maxScale} {d : Decimal} :
    (if h : p then some (normal ⟨m, hm h⟩ s (hs h)) else none) = some d
      ↔ p ∧ d.value = m / tenTo s := by
  by_cases h : p
  · rw [dif_pos h, Option.some_inj, normal_eq_iff, and_iff_right h]
  · rw [dif_neg h]
    exact iff_of_false (Option.some_ne_none d).symm fun hd => h hd.1

/-- A number is made of every way to write it that decimals have. -/
theorem new?_eq_some_iff {m : Wide} {s : Nat} {d : Decimal} :
    new? m s = some d ↔ s ≤ maxScale ∧ d.value = m.val / tenTo s :=
  dite_normal_eq_some_iff

-- ====================================================== obtained numbers

/-- The numbers that are made from fields, machine integers and literals, and
by arithmetic in any composition. -/
inductive Obtained : Decimal → Prop
  | new {m : Wide} {s : Nat} {d : Decimal} (h : new? m s = some d) : Obtained d
  | ofInt64 (n : Int64) : Obtained (ofInt64 n)
  | ofText {text : String} {d : Decimal} (h : ofText text = .ok d) : Obtained d
  | arith (op : Arith) {a b d : Decimal} (ha : Obtained a) (hb : Obtained b)
      (h : op.onDecimal a b = some d) : Obtained d

/-- A mantissa and a scale in normal form. -/
structure IsNormal (m : Int) (s : Nat) : Prop where
  inWideRange : InWideRange m
  scale_le : s ≤ maxScale
  /-- Zero has no fraction. -/
  zero : m = 0 → s = 0
  /-- Any other fraction does not end in zero. -/
  reduced : m ≠ 0 → s = 0 ∨ ¬ 10 ∣ m

/-- The fields of a number are in normal form. -/
theorem isNormal_fields (d : Decimal) : IsNormal d.mantissa d.scale where
  inWideRange := d.inWideRange
  scale_le := d.scale_le
  zero hzero := by
    rcases d.reduced with h | h
    · exact h
    · exact absurd (by rw [hzero]; rfl) h
  reduced _ :=
    d.reduced.imp_right fun h hdvd => h (Int.emod_eq_zero_of_dvd hdvd)

/-- A mantissa and a scale in normal form are those of the number made of
them. -/
theorem IsNormal.exists_new? {m : Int} {s : Nat} (h : IsNormal m s) :
    ∃ d, new? ⟨m, h.inWideRange⟩ s = some d ∧ d.mantissa = m
      ∧ d.scale = s := by
  have hreduced : s = 0 ∨ m % 10 ≠ 0 := by
    by_cases hm : m = 0
    · exact .inl (h.zero hm)
    · exact (h.reduced hm).imp_right fun hdvd hmod =>
        hdvd (Int.dvd_of_emod_eq_zero hmod)
  let d : Decimal := ⟨m, s, h.inWideRange, h.scale_le, hreduced⟩
  exact ⟨d, new?_self d, rfl, rfl⟩

/-- The fields of obtained numbers are the mantissas and scales in normal
form. Making a number from a mantissa and a scale keeps what they stand for,
and obtained numbers are equal exactly if they stand for the same number. -/
theorem obtained_normal_form :
    (∀ m s, (∃ d, Obtained d ∧ d.mantissa = m ∧ d.scale = s) ↔ IsNormal m s) ∧
    (∀ (m : Wide) s d, new? m s = some d
      ↔ s ≤ maxScale ∧ d.value = m.val / tenTo s) ∧
    (∀ d e, Obtained d → Obtained e → (d = e ↔ d.value = e.value)) := by
  refine ⟨fun m s => ⟨?_, fun h => ?_⟩, fun m s d => new?_eq_some_iff,
    fun d e _ _ => value_inj.symm⟩
  · rintro ⟨d, -, rfl, rfl⟩
    exact isNormal_fields d
  · obtain ⟨d, hnew, hmantissa, hscale⟩ := h.exists_new?
    exact ⟨d, .new hnew, hmantissa, hscale⟩

/-- A literal with a zero at its end and a mantissa with two more of them are
the same number. -/
theorem three_halves_normal_form :
    ∃ d e, ofText "1.50" = .ok d ∧ new? (ofInt64 1500).wide 3 = some e
      ∧ IsNormal e.mantissa e.scale ∧ d = e := by
  let d : Decimal := ⟨15, 1, by decide, one_le_maxScale, by decide⟩
  have hliteral : ofText "1.50" = .ok d := by decide +kernel
  obtain ⟨e, hnew⟩ : ∃ e, new? (ofInt64 1500).wide 3 = some e := ⟨_, rfl⟩
  have he := (obtained_normal_form.2.1 _ _ _).mp hnew
  have hvalue : d.value = e.value := by
    rw [he.2]
    decide +kernel
  exact ⟨d, e, hliteral, hnew,
    (obtained_normal_form.1 _ _).mp ⟨e, .new hnew, rfl, rfl⟩,
    (obtained_normal_form.2.2 d e (.ofText hliteral) (.new hnew)).mpr hvalue⟩

end StackMachine.Decimal
