/-
Binary numbers from text. A literal is an optional sign and then either
`inf`, `infinity` or `nan` in any case, or decimal digits with at most one
point among them and an optional exponent of its own sign. The value is the
binary number nearest to the decimal, however many digits it has.
-/
import StackMachine.Binary64.Basic
import StackMachine.Tens
import StackMachine.Text.Letters

namespace StackMachine.Binary64

/-- A text's sign and what follows it; `true` is minus. -/
def splitSign : List Char → Bool × List Char
  | '-' :: rest => (true, rest)
  | '+' :: rest => (false, rest)
  | text => (false, text)

/-- The exponent part: nothing, or a mark of either case, a sign and at
least one digit. -/
def exponent? : List Char → Option Int
  | [] => some 0
  | mark :: rest =>
    if mark = 'e' ∨ mark = 'E' then
      let (minus, digits) := splitSign rest
      if digits.isEmpty || !digits.all Char.isDigit then none
      else
        let n : Int := Text.decimalNumber digits
        some (if minus then -n else n)
    else none

/-- The number nearest to `digits · 10 ^ x`. Far outside the range of the
format the result is known from the place of the first digit alone, and no
large power is formed. -/
def ofDigits (negative : Bool) (digits : List Char) (x : Int) : Binary64 :=
  let significant := digits.dropWhile (· == '0')
  let n := Text.decimalNumber significant
  let place := significant.length + x
  if significant.isEmpty ∨ place < -330 then ofMagnitude negative 0
  else if 310 < place then infinity negative
  else ofRatio negative (n * tenTo x.toNat) (tenTo (-x).toNat)

/-- A decimal literal without its sign. -/
def ofUnsigned? (negative : Bool) (text : List Char) : Option Binary64 :=
  let (whole, rest) := text.span Char.isDigit
  let (fraction, rest) :=
    match rest with
    | '.' :: rest => rest.span Char.isDigit
    | rest => ([], rest)
  if whole.isEmpty && fraction.isEmpty then none
  else (exponent? rest).map
    fun x => ofDigits negative (whole ++ fraction) (x - fraction.length)

/-- The number that a literal stands for. -/
def ofText? (text : String) : Option Binary64 :=
  let (negative, body) := splitSign text.toList
  let word := Text.small (String.ofList body)
  if word = "inf" ∨ word = "infinity" then some (infinity negative)
  else if word = "nan" then some (quietNaN negative)
  else ofUnsigned? negative body

end StackMachine.Binary64
