/-
Integer literals: an optional sign and then decimal digits, or `0x` and
hexadecimal digits. The value must fit a 64-bit integer; an operand must fit
32 bits, and a count must not be negative.
-/
import StackMachine.Text.Letters

namespace StackMachine.Assembly.Literal

/-- The magnitude that decimal or hexadecimal digits spell. -/
def magnitude? : List Char → Option Nat
  | '0' :: 'x' :: digits => hexadecimal? digits
  | '0' :: 'X' :: digits => hexadecimal? digits
  | digits =>
    if digits.isEmpty || !digits.all Char.isDigit then none
    else some (Text.decimalNumber digits)
where
  /-- The magnitude that the digits behind `0x` spell. -/
  hexadecimal? (digits : List Char) : Option Nat :=
    if digits.isEmpty || !digits.all Text.isHexDigit then none
    else some (Text.hexNumber digits)

/-- The integer that a text spells, whatever its size. -/
def signed? (text : String) : Option Int :=
  match text.toList with
  | '-' :: body => (magnitude? body).map fun n => -(n : Int)
  | '+' :: body => (magnitude? body).map fun n => (n : Int)
  | body => (magnitude? body).map fun n => (n : Int)

/-- The 64-bit integer that a text spells. -/
def integer? (text : String) : Option Int :=
  match signed? text with
  | some n =>
    if -0x8000000000000000 ≤ n ∧ n < 0x8000000000000000 then some n else none
  | none => none

/-- The operand that a text spells. -/
def operand? (text : String) : Option Int32 :=
  match integer? text with
  | some n =>
    if -0x80000000 ≤ n ∧ n < 0x80000000 then some (Int32.ofInt n) else none
  | none => none

/-- The count that a text spells. -/
def count? (text : String) : Option Nat :=
  match integer? text with
  | some n => if 0 ≤ n then some n.toNat else none
  | none => none

end StackMachine.Assembly.Literal
