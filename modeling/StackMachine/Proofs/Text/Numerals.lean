/-
Decimal numerals read back. Counts, operands and integers are written with
the digits of their magnitude and a minus where there is one; whatever
accepts digits accepts these, and gets the number that was written.

The digits themselves are the core library's, and so is the fact that they
spell the number. What is added here is that the readers of literals fold
the digits the same way, and that no numeral is mistaken for a hexadecimal
one or for a signed one.
-/
import StackMachine.Assembly.Literal

namespace StackMachine.Text

/-- One digit more. -/
theorem number_concat (base : Nat) (value : Char → Nat) (digits : List Char)
    (c : Char) :
    number base value (digits ++ [c]) = number base value digits * base
      + value c := by
  simp [number, List.foldl_append]

/-- Digits are read as the library reads them. -/
theorem decimalNumber_eq_ofDigitChars (digits : List Char) :
    decimalNumber digits = Nat.ofDigitChars 10 digits 0 := by
  unfold decimalNumber number
  rw [Nat.ofDigitChars_eq_foldl]
  congr 1
  funext n c
  rw [Nat.mul_comm n 10]
  rfl

theorem decimalNumber_toDigits (n : Nat) :
    decimalNumber (Nat.toDigits 10 n) = n := by
  rw [decimalNumber_eq_ofDigitChars, Nat.ofDigitChars_ten_toDigits]

/-- Zeros in front do not change the number. -/
theorem decimalNumber_replicate_append (k : Nat) (digits : List Char) :
    decimalNumber (List.replicate k '0' ++ digits) = decimalNumber digits := by
  rw [decimalNumber_eq_ofDigitChars, decimalNumber_eq_ofDigitChars,
    Nat.ofDigitChars_append, Nat.ofDigitChars_replicate_zero, Nat.mul_zero]

theorem isDigit_of_mem_toDigits {n : Nat} {c : Char}
    (hc : c ∈ Nat.toDigits 10 n) : c.isDigit :=
  Nat.isDigit_of_mem_toDigits (by decide) (by decide) hc

/-- An integer is written as its digits, behind a minus when it is
negative. -/
theorem toList_toString_int (n : Int) :
    (toString n).toList = (if n < 0 then ['-'] else [])
      ++ Nat.toDigits 10 n.natAbs := by
  cases n with
  | ofNat m =>
      have hpos : ¬ Int.ofNat m < 0 := Int.not_lt.mpr (Int.natCast_nonneg m)
      rw [if_neg hpos]
      exact Nat.toList_repr
  | negSucc m =>
      rw [if_pos (Int.negSucc_lt_zero m)]
      show ("-" ++ Nat.repr (m + 1)).toList = _
      rw [String.toList_append, Nat.toList_repr]
      rfl

end StackMachine.Text

namespace StackMachine.Assembly.Literal

/-- Digits alone are read in base ten; none of them is the mark of another
base. -/
theorem magnitude?_eq {digits : List Char} (hne : digits ≠ [])
    (hd : ∀ c ∈ digits, c.isDigit) :
    magnitude? digits = some (Text.decimalNumber digits) := by
  have hx : ∀ {c : Char} {rest : List Char}, c.isDigit = false →
      digits ≠ '0' :: c :: rest := by
    intro c rest hc h
    have hmem : c ∈ digits := by
      rw [h]
      exact List.mem_cons_of_mem _ List.mem_cons_self
    rw [hd c hmem] at hc
    cases hc
  unfold magnitude?
  split
  · exact absurd rfl (hx (by decide))
  · exact absurd rfl (hx (by decide))
  · rw [if_neg]
    simpa [hne] using hd

/-- A sign is not a digit, so digits without one are read as they stand. -/
theorem signed?_digits {text : String} (hne : text.toList ≠ [])
    (hd : ∀ c ∈ text.toList, c.isDigit) :
    signed? text = some (Text.decimalNumber text.toList : Int) := by
  have hsign : ∀ {c : Char} {rest : List Char}, c.isDigit = false →
      text.toList ≠ c :: rest := by
    intro c rest hc h
    have hmem : c ∈ text.toList := by
      rw [h]
      exact List.mem_cons_self
    rw [hd c hmem] at hc
    cases hc
  unfold signed?
  split
  · next h => exact absurd h (hsign (by decide))
  · next h => exact absurd h (hsign (by decide))
  · rw [magnitude?_eq hne hd]
    rfl

/-- A written integer is read back, with its sign. -/
theorem signed?_toString (n : Int) : signed? (toString n) = some n := by
  have htext := Text.toList_toString_int n
  by_cases hneg : n < 0
  · rw [if_pos hneg] at htext
    have hmagnitude : magnitude? (Nat.toDigits 10 n.natAbs)
        = some n.natAbs := by
      rw [magnitude?_eq Nat.toDigits_ne_nil
        fun c hc => Text.isDigit_of_mem_toDigits hc,
        Text.decimalNumber_toDigits]
    unfold signed?
    rw [htext]
    simp only [List.singleton_append, hmagnitude, Option.bind_eq_bind,
      Option.bind_some, Option.pure_def, Option.map_some, Option.some.injEq]
    omega
  · rw [if_neg hneg, List.nil_append] at htext
    rw [signed?_digits (by rw [htext]; exact Nat.toDigits_ne_nil)
      (fun c hc => Text.isDigit_of_mem_toDigits (htext ▸ hc)), htext,
        Text.decimalNumber_toDigits]
    simp only [Option.some.injEq]
    omega

/-- It is taken for a literal if it fits 64 bits. -/
theorem integer?_toString {n : Int} (hlo : -0x8000000000000000 ≤ n)
    (hhi : n < 0x8000000000000000) :
    integer? (toString n) = some n := by
  unfold integer?
  rw [signed?_toString]
  exact if_pos ⟨hlo, hhi⟩

/-- Every integer of 64 bits does. -/
theorem integer?_int64 (n : Int64) :
    integer? (toString n.toInt) = some n.toInt :=
  integer?_toString n.le_toInt n.toInt_lt

/-- A written operand is read back. -/
theorem operand?_toString (n : Int32) :
    operand? (toString n.toInt) = some n := by
  have hlo := n.le_toInt
  have hhi := n.toInt_lt
  unfold operand?
  rw [integer?_toString (by omega) (by omega)]
  show (if _ then _ else _) = _
  rw [if_pos ⟨hlo, hhi⟩, Int32.ofInt_toInt]

/-- A written count is read back if it fits 64 bits with a sign. -/
theorem count?_toString {n : Nat} (h : n < 0x8000000000000000) :
    count? (toString n) = some n := by
  have hint : integer? (toString n) = some (n : Int) :=
    integer?_toString (n := (n : Int)) (by omega) (by omega)
  unfold count?
  rw [hint]
  show (if _ then _ else _) = _
  rw [if_pos (Int.natCast_nonneg n), Int.toNat_natCast]

end StackMachine.Assembly.Literal
