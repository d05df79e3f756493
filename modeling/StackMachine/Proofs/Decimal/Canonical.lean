/-
Decimal numbers are what their canonical forms say. The fields of a number
are already reduced, so making a number from them changes nothing
(`new?_self`), and the canonical text spells them (`ofText_toText`).

One number has a text that is not read back: its mantissa is the least of
the range, whose magnitude is out of range without the sign.
-/
import Mathlib.Data.List.TakeDrop
import StackMachine.Decimal.Literal
import StackMachine.Proofs.Text.Numerals

namespace StackMachine.Decimal

-- ======================================================== reduced form

/-- Where no zero can be taken off, nothing changes. -/
theorem reduce_eq_self {m : Int} {s : Nat} (h : s = 0 ∨ m % 10 ≠ 0) :
    reduce m s = (m, s) := by
  cases s with
  | zero => rfl
  | succ s =>
      have hm : m % 10 ≠ 0 := h.resolve_left (Nat.succ_ne_zero s)
      rw [reduce, if_neg hm]

/-- Dropping zeros does not make a mantissa larger. -/
theorem natAbs_reduce_le (m : Int) (s : Nat) :
    (reduce m s).1.natAbs ≤ m.natAbs := by
  induction s generalizing m with
  | zero => exact Nat.le_refl _
  | succ s ih =>
      unfold reduce
      split
      · exact Nat.le_trans (ih _) (by omega)
      · exact Nat.le_refl _

/-- The fields of a number make the number. -/
theorem normal_self (d : Decimal) {m : Wide} {s : Nat} (hs : s ≤ maxScale)
    (hm : m.val = d.mantissa) (hscale : s = d.scale) : normal m s hs = d := by
  have hreduce : reduce m.val s = (d.mantissa, d.scale) := by
    rw [hm, hscale, reduce_eq_self d.reduced]
  unfold normal
  congr 1
  · rw [hreduce]
  · rw [hreduce]

/-- A number is the one made from its own fields. -/
theorem new?_self (d : Decimal) : new? d.wide d.scale = some d := by
  rw [new?, dif_pos d.scale_le, normal_self d d.scale_le rfl rfl]

-- ======================================================== canonical text

/-- The digits of a number, split at its point. -/
structure Spelling (d : Decimal) (whole fraction : List Char) : Prop where
  whole_ne_nil : whole ≠ []
  isDigit : ∀ c ∈ whole ++ fraction, c.isDigit
  length_fraction : fraction.length = d.scale
  number : Text.decimalNumber (whole ++ fraction) = d.mantissa.natAbs
  text : d.toText.toList = (if d.mantissa < 0 then ['-'] else [])
    ++ if d.scale = 0 then whole else whole ++ '.' :: fraction

/-- Every number is written with digits, and with a point among them if
it has a scale. -/
theorem exists_spelling (d : Decimal) :
    ∃ whole fraction, Spelling d whole fraction := by
  let digits := Nat.toDigits 10 d.mantissa.natAbs
  have hdigit : ∀ c ∈ digits, c.isDigit :=
    fun c hc => Text.isDigit_of_mem_toDigits hc
  by_cases hscale : d.scale = 0
  · refine ⟨digits, [], Nat.toDigits_ne_nil, ?_, hscale.symm, ?_, ?_⟩
    · rw [List.append_nil]
      exact hdigit
    · rw [List.append_nil, Text.decimalNumber_toDigits]
    · rw [toText, if_pos hscale, if_pos hscale, Text.toList_toString_int]
  · -- zeros in front, so that a digit is left before the point
    let padded := List.replicate (d.scale + 1 - digits.length) '0' ++ digits
    have hlength : d.scale < padded.length := by
      rw [List.length_append, List.length_replicate]
      omega
    refine ⟨padded.take (padded.length - d.scale),
      padded.drop (padded.length - d.scale), ?_, ?_, ?_, ?_, ?_⟩
    · intro hnil
      have hzero := congrArg List.length hnil
      rw [List.length_take, List.length_nil] at hzero
      omega
    · intro c hc
      rw [List.take_append_drop] at hc
      rcases List.mem_append.mp hc with hc | hc
      · rw [List.eq_of_mem_replicate hc]
        decide
      · exact hdigit c hc
    · rw [List.length_drop]
      omega
    · rw [List.take_append_drop, Text.decimalNumber_replicate_append,
        Text.decimalNumber_toDigits]
    · rw [toText, if_neg hscale, if_neg hscale, String.toList_append,
        String.toList_ofList]
      congr 1
      by_cases hneg : d.mantissa < 0
      · rw [if_pos hneg, if_pos hneg]
        rfl
      · rw [if_neg hneg, if_neg hneg]
        rfl

/-- Characters before the point go to the front. -/
theorem splitPoint_eq {whole : List Char} (h : '.' ∉ whole)
    (rest : List Char) :
    splitPoint (whole ++ rest)
      = (whole ++ (splitPoint rest).1, (splitPoint rest).2) := by
  have hpoint : ∀ c ∈ whole, decide (c ≠ '.') = true := by
    intro c hc
    refine decide_eq_true ?_
    rintro rfl
    exact h hc
  unfold splitPoint
  rw [List.span_eq_takeWhile_dropWhile, List.span_eq_takeWhile_dropWhile,
    List.takeWhile_append_of_pos hpoint, List.dropWhile_append_of_pos hpoint]
  cases rest.dropWhile fun c => decide (c ≠ '.') with
  | nil => rfl
  | cons c fraction => rfl

/-- Without a point all stands before it. -/
theorem splitPoint_bare {whole : List Char} (h : '.' ∉ whole) :
    splitPoint whole = (whole, []) := by
  have hsplit := splitPoint_eq h []
  rw [List.append_nil] at hsplit
  rw [hsplit, show splitPoint [] = ([], []) from rfl, List.append_nil]

/-- The first point divides a text. -/
theorem splitPoint_point {whole : List Char} (h : '.' ∉ whole)
    (fraction : List Char) :
    splitPoint (whole ++ '.' :: fraction) = (whole, fraction) := by
  have hrest : splitPoint ('.' :: fraction) = ([], fraction) := rfl
  rw [splitPoint_eq h, hrest, List.append_nil]

/-- So the written digits fall apart at the point where they were joined. -/
theorem Spelling.splitPoint {d : Decimal} {whole fraction : List Char}
    (h : Spelling d whole fraction) :
    Decimal.splitPoint
      (if d.scale = 0 then whole else whole ++ '.' :: fraction)
      = (whole, fraction) := by
  have hwhole : '.' ∉ whole := fun hmem =>
    absurd (h.isDigit _ (List.mem_append_left _ hmem)) (by decide)
  by_cases hscale : d.scale = 0
  · have hnil : fraction = [] := by
      have hlength := h.length_fraction
      rw [hscale] at hlength
      exact List.eq_nil_of_length_eq_zero hlength
    rw [if_pos hscale, splitPoint_bare hwhole, hnil]
  · rw [if_neg hscale, splitPoint_point hwhole]

/-- A number without its sign is read back. -/
theorem Spelling.ofUnsigned {d : Decimal} {whole fraction : List Char}
    (h : Spelling d whole fraction) {negative : Bool}
    (hsigned : signed negative d.mantissa.natAbs = d.mantissa)
    (hrange : d.mantissa.natAbs < 0x80000000000000000000000000000000) :
    Decimal.ofUnsigned negative
      (if d.scale = 0 then whole else whole ++ '.' :: fraction)
      = .ok d := by
  have hs : fraction.length ≤ maxScale := by
    rw [h.length_fraction]
    exact d.scale_le
  have hempty : (whole.isEmpty && fraction.isEmpty) = false := by
    rw [Bool.and_eq_false_iff]
    exact .inl (List.isEmpty_eq_false_iff.mpr h.whole_ne_nil)
  have hdigits : (whole ++ fraction).all Char.isDigit = true :=
    List.all_eq_true.mpr h.isDigit
  have hin : InWideRange (Text.decimalNumber (whole ++ fraction)) := by
    rw [h.number]
    exact inWideRange_natCast.mpr hrange
  have hmantissa := mantissa?_eq negative (whole ++ fraction)
  rw [dif_pos hin] at hmantissa
  unfold Decimal.ofUnsigned
  -- no check of the reader applies
  simp only [h.splitPoint, hempty, hdigits, hs, hmantissa, h.number]
  simp only [Bool.false_eq_true, if_false, Bool.not_true, dif_pos]
  rw [normal_self d hs hsigned h.length_fraction]

/-- A number without its sign starts with a digit. -/
theorem Spelling.isDigit_head {d : Decimal} {whole fraction : List Char}
    (h : Spelling d whole fraction) {c : Char} {rest : List Char}
    (hc : (if d.scale = 0 then whole else whole ++ '.' :: fraction)
      = c :: rest) : c.isDigit := by
  cases whole with
  | nil => exact absurd rfl h.whole_ne_nil
  | cons first digits =>
      have hfirst : first = c := by
        split at hc
        · exact (List.cons.inj hc).1
        · exact (List.cons.inj hc).1
      rw [← hfirst]
      exact h.isDigit first (List.mem_append_left _ List.mem_cons_self)

/-- The canonical text of a number is read as that number, unless its mantissa
is the least. -/
theorem ofText_toText {d : Decimal}
    (h : d.mantissa ≠ -0x80000000000000000000000000000000) :
    ofText d.toText = .ok d := by
  obtain ⟨whole, fraction, hd⟩ := exists_spelling d
  have hrange : d.mantissa.natAbs < 0x80000000000000000000000000000000 := by
    have hwide := d.inWideRange
    unfold InWideRange at hwide
    omega
  have htext := hd.text
  unfold ofText
  by_cases hneg : d.mantissa < 0
  · rw [if_pos hneg, List.singleton_append] at htext
    rw [htext]
    refine hd.ofUnsigned ?_ hrange
    show -(d.mantissa.natAbs : Int) = d.mantissa
    omega
  · rw [if_neg hneg, List.nil_append] at htext
    have hunsigned : ofUnsigned false d.toText.toList = .ok d := by
      rw [htext]
      refine hd.ofUnsigned ?_ hrange
      show (d.mantissa.natAbs : Int) = d.mantissa
      omega
    -- the text begins with a digit, and is not taken for one with a sign
    have hsign : ∀ {c : Char} {rest : List Char}, c.isDigit = false →
        d.toText.toList ≠ c :: rest := by
      intro c rest hc heq
      rw [hd.isDigit_head (htext.symm.trans heq)] at hc
      cases hc
    split
    · next heq => exact absurd heq (hsign (by decide))
    · next heq => exact absurd heq (hsign (by decide))
    · exact hunsigned

end StackMachine.Decimal
