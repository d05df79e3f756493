/-
Decimal numbers as text: an optional sign, digits, and a point with more
digits. Writing puts at least one digit before the point and exactly the
number's own digits behind it. Reading accepts digits on either side of the
point, and refuses for the first of four reasons that applies.

The digits are read into the mantissa one by one, and every step is checked
against its range. A number that left the range never comes back, so the
steps refuse what one check of the whole number would (`mantissa?_eq`).
-/
import StackMachine.Decimal.Basic
import StackMachine.Text.Letters

namespace StackMachine.Decimal

/-- The canonical text. -/
def toText (d : Decimal) : String :=
  if d.scale = 0 then toString d.mantissa
  else
    let digits := Nat.toDigits 10 d.mantissa.natAbs
    let padded := List.replicate (d.scale + 1 - digits.length) '0' ++ digits
    let whole := padded.take (padded.length - d.scale)
    let fraction := padded.drop (padded.length - d.scale)
    (if d.mantissa < 0 then "-" else "")
      ++ String.ofList (whole ++ '.' :: fraction)

/-- Why a text is no decimal number, in order of precedence. -/
inductive LiteralError where
  /-- Nothing stands before or behind the point. -/
  | empty
  /-- A character is no digit. -/
  | invalidDigit
  /-- There are more digits behind the point than the scale allows. -/
  | tooManyFractionalDigits
  /-- The digits spell a number out of range. -/
  | outOfRange
  deriving DecidableEq

/-- The wording of a literal error. -/
def LiteralError.message : LiteralError → String
  | empty => "empty decimal literal"
  | invalidDigit => "invalid digit in decimal literal"
  | tooManyFractionalDigits => "more than 28 fractional digits"
  | outOfRange => "decimal literal out of range"

/-- What stands before and behind the first point. -/
def splitPoint (body : List Char) : List Char × List Char :=
  match body.span (· ≠ '.') with
  | (whole, _ :: fraction) => (whole, fraction)
  | (whole, []) => (whole, [])

-- ============================================================= mantissas

/-- A mantissa with one digit more: times ten and then plus the digit, each of
them checked. -/
def appendDigit? (m : Wide) (c : Char) : Option Wide := do
  let shifted ← Wide.ofInt? (m.val * 10)
  Wide.ofInt? (shifted.val + Text.digitValue c)

/-- The mantissa that digits spell, from the left. -/
def readDigits? (digits : List Char) : Option Wide :=
  digits.foldlM appendDigit? ⟨0, by decide⟩

/-- One check of the result takes the place of the two of a step. -/
theorem appendDigit?_eq {n : Nat} (hn : InWideRange n) (c : Char) :
    appendDigit? ⟨n, hn⟩ c
      = Wide.ofInt? (n * 10 + Text.digitValue c : Nat) := by
  have hsum : ((n * 10 + Text.digitValue c : Nat) : Int)
      = (n : Int) * 10 + Text.digitValue c := by omega
  rw [hsum]
  simp only [appendDigit?, Option.bind_eq_bind]
  by_cases hshift : InWideRange ((n : Int) * 10)
  · rw [Wide.ofInt?_of_inWideRange hshift, Option.bind_some]
  · have hlarge : ¬ InWideRange ((n : Int) * 10 + Text.digitValue c) := by
      unfold InWideRange at hshift ⊢
      omega
    rw [Wide.ofInt?_eq_none.mpr hshift, Wide.ofInt?_eq_none.mpr hlarge,
      Option.bind_none]

/-- More digits never make a number smaller. -/
theorem le_foldl_digits (digits : List Char) (n : Nat) :
    n ≤ digits.foldl (fun n c => n * 10 + Text.digitValue c) n := by
  induction digits generalizing n with
  | nil => exact Nat.le_refl n
  | cons c digits ih =>
    have hstep : n ≤ n * 10 + Text.digitValue c := by omega
    exact Nat.le_trans hstep (ih _)

/-- Behind a number that is in range, further digits are read exactly if the
number that they end in is in range. -/
theorem foldlM_appendDigit? (digits : List Char) {n : Nat}
    (hn : InWideRange n) :
    digits.foldlM appendDigit? ⟨n, hn⟩
      = Wide.ofInt?
        (digits.foldl (fun n c => n * 10 + Text.digitValue c) n : Nat) := by
  induction digits generalizing n with
  | nil => exact (Wide.ofInt?_of_inWideRange hn).symm
  | cons c digits ih =>
    rw [List.foldlM_cons, List.foldl_cons, appendDigit?_eq hn]
    by_cases hstep : InWideRange (n * 10 + Text.digitValue c : Nat)
    · rw [Wide.ofInt?_of_inWideRange hstep]
      exact ih hstep
    · have hle := le_foldl_digits digits (n * 10 + Text.digitValue c)
      have hend : ¬ InWideRange (digits.foldl
          (fun n c => n * 10 + Text.digitValue c)
          (n * 10 + Text.digitValue c) : Nat) := by
        unfold InWideRange at hstep ⊢
        omega
      rw [Wide.ofInt?_eq_none.mpr hstep, Wide.ofInt?_eq_none.mpr hend]
      rfl

/-- The checked steps read the number that the digits spell, if it is in
range. -/
theorem readDigits?_eq (digits : List Char) :
    readDigits? digits = Wide.ofInt? (Text.decimalNumber digits) :=
  foldlM_appendDigit? digits (n := 0) _

/-- A number with its sign. -/
def signed (negative : Bool) (n : Int) : Int := if negative then -n else n

/-- A magnitude of 127 bits is in range with either sign. -/
theorem inWideRange_signed (negative : Bool) {n : Int} (hnonneg : 0 ≤ n)
    (h : InWideRange n) : InWideRange (signed negative n) := by
  unfold signed InWideRange at *
  split <;> omega

/-- What digits spell is not negative, so that its sign can be turned. -/
theorem nonneg_of_readDigits? {digits : List Char} {m : Wide}
    (h : readDigits? digits = some m) : 0 ≤ m.val := by
  rw [readDigits?_eq] at h
  rw [Wide.val_of_ofInt? h]
  exact Int.natCast_nonneg _

/-- The mantissa that digits spell behind a sign. The digits are read before
the sign is put on, so the least mantissa has no literal. -/
def mantissa? (negative : Bool) (digits : List Char) : Option Wide :=
  match h : readDigits? digits with
  | none => none
  | some m => some ⟨signed negative m.val,
      inWideRange_signed negative (nonneg_of_readDigits? h) m.property⟩

/-- Reading a mantissa is one check of the number that the digits spell. -/
theorem mantissa?_eq (negative : Bool) (digits : List Char) :
    mantissa? negative digits
      = if h : InWideRange (Text.decimalNumber digits) then
          some ⟨signed negative (Text.decimalNumber digits),
            inWideRange_signed negative (Int.natCast_nonneg _) h⟩
        else none := by
  have hread := readDigits?_eq digits
  unfold mantissa?
  split
  · next hnone =>
    rw [dif_neg (Wide.ofInt?_eq_none.mp (hread.symm.trans hnone))]
  · next m hsome =>
    have hval := Wide.val_of_ofInt? (hread.symm.trans hsome)
    rw [dif_pos (hval ▸ m.property)]
    simp only [hval]

-- ============================================================== literals

/-- A literal without its sign. -/
def ofUnsigned (negative : Bool) (body : List Char) :
    Except LiteralError Decimal :=
  let (whole, fraction) := splitPoint body
  if whole.isEmpty && fraction.isEmpty then .error .empty
  else if !(whole ++ fraction).all Char.isDigit then .error .invalidDigit
  else if hs : fraction.length ≤ maxScale then
    match mantissa? negative (whole ++ fraction) with
    | some m => .ok (normal m fraction.length hs)
    | none => .error .outOfRange
  else .error .tooManyFractionalDigits

/-- The number that a text stands for. -/
def ofText (text : String) : Except LiteralError Decimal :=
  match text.toList with
  | '-' :: body => ofUnsigned true body
  | '+' :: body => ofUnsigned false body
  | body => ofUnsigned false body

end StackMachine.Decimal
