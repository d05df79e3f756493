/-
Letters and digits of the ASCII range. Names of the instruction set and of
the assembly directives ignore case, and case means ASCII case: every other
character stands for itself. `Char.toLower` and `Char.isDigit` know exactly
the ASCII range, which is what the rules below ask for.
-/

namespace StackMachine.Text

/-- Equality that ignores the case of ASCII letters. -/
def sameLetters (a b : String) : Bool :=
  a.toList.map Char.toLower == b.toList.map Char.toLower

/-- The text with its ASCII capitals made small. -/
def small (a : String) : String :=
  String.ofList (a.toList.map Char.toLower)

/-- The number that a list of digits spells in a base. -/
def number (base : Nat) (digitValue : Char → Nat) (digits : List Char) : Nat :=
  digits.foldl (fun n c => n * base + digitValue c) 0

/-- The value of a decimal digit. -/
def digitValue (c : Char) : Nat := c.toNat - '0'.toNat

/-- A hexadecimal digit of either case. -/
def isHexDigit (c : Char) : Bool :=
  c.isDigit || ('a' ≤ c && c ≤ 'f') || ('A' ≤ c && c ≤ 'F')

/-- The value of a hexadecimal digit. -/
def hexDigitValue (c : Char) : Nat :=
  if c.isDigit then digitValue c else c.toLower.toNat - 'a'.toNat + 10

/-- The number spelled by decimal digits. -/
def decimalNumber (digits : List Char) : Nat := number 10 digitValue digits

/-- The number spelled by hexadecimal digits. -/
def hexNumber (digits : List Char) : Nat := number 16 hexDigitValue digits

/-- Small hexadecimal digits without leading zeros. -/
def hex (n : Nat) : String := String.ofList (Nat.toDigits 16 n)

/-- Hexadecimal behind `0x`, filled with zeros to at least `width` digits. -/
def hexPadded (width n : Nat) : String :=
  "0x" ++ String.ofList (List.replicate (width - (hex n).length) '0') ++ hex n

end StackMachine.Text
