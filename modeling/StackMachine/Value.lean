/-
Values: what constants, local slots and the operand stack hold. The kinds
are closed; an operation on the wrong kind is refused and never coerced,
except that arithmetic and order between numbers of different kinds go
through binary numbers, and a sum with text on either side joins the two
texts.

Integers are exact or refused. Order between integers and decimals is
exact; with a binary number on either side it is the binary order.
-/
import StackMachine.Binary64.Literal
import StackMachine.Binary64.Shortest
import StackMachine.Decimal.Literal

namespace StackMachine

-- ================================================================ kinds

/-- The kinds of values. -/
inductive Kind where
  | null | int | float | decimal | bool | string
  deriving DecidableEq

namespace Kind

/-- All kinds, by increasing tag. -/
def all : List Kind := [null, int, float, decimal, bool, string]

/-- The byte that marks a constant of this kind in an image. -/
def tag : Kind → UInt8
  | null => 0
  | int => 1
  | float => 2
  | decimal => 3
  | bool => 4
  | string => 5

/-- The name in assembly text and in messages. -/
def name : Kind → String
  | null => "null"
  | int => "int"
  | float => "float"
  | decimal => "decimal"
  | bool => "bool"
  | string => "string"

/-- The kind with this tag. -/
def ofTag? (t : UInt8) : Option Kind := all.find? (·.tag == t)

/-- The kind with this name, which is written in small letters. -/
def ofName? (text : String) : Option Kind := all.find? (·.name == text)

/-- Numbers are integers, binary numbers and decimals. -/
def isNumeric : Kind → Bool
  | int | float | decimal => true
  | _ => false

/-- Tags are read back, since no two kinds share one. -/
theorem ofTag?_tag (k : Kind) : ofTag? k.tag = some k := by
  cases k <;> rfl

/-- A tag is read as the kind that has it. -/
theorem tag_of_ofTag? {t : UInt8} {k : Kind} (h : ofTag? t = some k) :
    k.tag = t := by
  simpa using List.find?_some h

end Kind

-- =============================================================== values

/-- A value. -/
inductive Value where
  | null
  | int (n : Int64)
  | float (x : Binary64)
  | decimal (d : Decimal)
  | bool (b : Bool)
  | string (s : String)
  deriving DecidableEq

/-- The four arithmetic operators. -/
inductive Arith where
  | add | sub | mul | div
  deriving DecidableEq

namespace Arith

/-- The name in messages. -/
def name : Arith → String
  | add => "add"
  | sub => "sub"
  | mul => "mul"
  | div => "div"

/-- An operator on integers; division cuts toward zero. -/
def onInt : Arith → Int → Int → Int
  | add, a, b => a + b
  | sub, a, b => a - b
  | mul, a, b => a * b
  | div, a, b => a.tdiv b

/-- An operator on decimals. -/
def onDecimal : Arith → Decimal → Decimal → Option Decimal
  | add => Decimal.add?
  | sub => Decimal.sub?
  | mul => Decimal.mul?
  | div => Decimal.div?

/-- An operator on binary numbers. -/
def onFloat : Arith → Binary64 → Binary64 → Binary64
  | add => Binary64.add
  | sub => Binary64.sub
  | mul => Binary64.mul
  | div => Binary64.div

end Arith

/-- Operations that ask for values of certain kinds. -/
inductive Operation where
  | arith (op : Arith)
  | lessThan
  /-- Taking the payload of a value of this kind. -/
  | payload (kind : Kind)
  /-- Branching on a value. -/
  | branch
  deriving DecidableEq

/-- The name in messages. -/
def Operation.name : Operation → String
  | arith op => op.name
  | lessThan => "cmp_lt"
  | payload .string => "as_str"
  | payload kind => "as_" ++ kind.name
  | branch => "jump_if_false"

/-- Why an operation on values is refused. -/
inductive ValueError where
  /-- The operands, in order, are of kinds that the operation does not take. -/
  | typeMismatch (operation : Operation) (found : List Kind)
  /-- The right operand of a division is zero. -/
  | divisionByZero
  /-- An integer or decimal result does not fit. -/
  | overflow (op : Arith)
  deriving DecidableEq

/-- Kinds as a message lists them. -/
def Kind.listed (kinds : List Kind) : String :=
  " and ".intercalate (kinds.map Kind.name)

/-- The wording of a value error. -/
def ValueError.message : ValueError → String
  | typeMismatch operation found =>
    "type mismatch in " ++ operation.name ++ ": " ++ Kind.listed found
  | divisionByZero => "division by zero"
  | overflow op => "arithmetic overflow in " ++ op.name

namespace Value

/-- The kind of a value. -/
def kind : Value → Kind
  | null => .null
  | int _ => .int
  | float _ => .float
  | decimal _ => .decimal
  | bool _ => .bool
  | string _ => .string

/-- Whether a value is a number. -/
def isNumber (v : Value) : Bool := v.kind.isNumeric

/-- The canonical text, which `print` writes and sums with text join. -/
def toText : Value → String
  | null => "null"
  | int n => toString n.toInt
  | float x => x.toText
  | decimal d => d.toText
  | bool true => "true"
  | bool false => "false"
  | string s => s

-- ============================================================= payloads

/-- The refusal of a value that is not of the asked kind. -/
def notA (asked : Kind) (v : Value) : ValueError :=
  .typeMismatch (.payload asked) [v.kind]

/-- The integer in a value. -/
def asInt : Value → Except ValueError Int64
  | int n => .ok n
  | v => .error (notA .int v)

/-- The binary number in a value. -/
def asFloat : Value → Except ValueError Binary64
  | float x => .ok x
  | v => .error (notA .float v)

/-- The decimal number in a value. -/
def asDecimal : Value → Except ValueError Decimal
  | decimal d => .ok d
  | v => .error (notA .decimal v)

/-- The truth value in a value. -/
def asBool : Value → Except ValueError Bool
  | bool b => .ok b
  | v => .error (notA .bool v)

/-- The text in a value. -/
def asString : Value → Except ValueError String
  | string s => .ok s
  | v => .error (notA .string v)

-- =========================================================== arithmetic

/-- The integer as a machine integer, when it fits. -/
def ofInt? (n : Int) : Option Value :=
  if -0x8000000000000000 ≤ n
    ∧ n < 0x8000000000000000 then some (int (Int64.ofInt n)) else none

/-- Whether a value is a number equal to zero. -/
def isZero : Value → Bool
  | int n => n == 0
  | float x => x.isZero
  | decimal d => d.isZero
  | _ => false

/-- A number as a binary number, rounded if need be. -/
def toBinary64? : Value → Option Binary64
  | int n => some (Binary64.ofInt n.toInt)
  | float x => some x
  | decimal d => some d.toBinary64
  | _ => none

/-- Whether either value is text. -/
def eitherString (a b : Value) : Bool := a.kind == .string || b.kind == .string

/-- An operator on two numbers: exact within one kind, and through binary
numbers otherwise. -/
def numeric (op : Arith) (a b : Value) : Except ValueError Value :=
  match a, b with
  | int m, int n =>
    match ofInt? (op.onInt m.toInt n.toInt) with
    | some v => .ok v
    | none => .error (.overflow op)
  | decimal c, decimal d =>
    match op.onDecimal c d with
    | some r => .ok (decimal r)
    | none => .error (.overflow op)
  | a, b =>
    match a.toBinary64?, b.toBinary64? with
    | some x, some y => .ok (float (op.onFloat x y))
    | _, _ => .error (.typeMismatch (.arith op) [a.kind, b.kind])

/-- An operator on two values. A sum with text joins; otherwise both must be
numbers, and a zero divisor is refused before anything is computed. -/
def arith (op : Arith) (a b : Value) : Except ValueError Value :=
  if op = .add ∧ eitherString a b then .ok (string (a.toText ++ b.toText))
  else if !(a.isNumber && b.isNumber) then .error
    (.typeMismatch (.arith op) [a.kind, b.kind])
  else if op = .div ∧ b.isZero then .error .divisionByZero
  else numeric op a b

-- ================================================================ order

/-- Numeric order. -/
def lessThan (a b : Value) : Except ValueError Bool :=
  match a, b with
  | int m, int n => .ok (m.toInt < n.toInt)
  | decimal c, decimal d => .ok (c.less d)
  | decimal c, int n => .ok (c.less (Decimal.ofInt64 n))
  | int m, decimal d => .ok ((Decimal.ofInt64 m).less d)
  | a, b =>
    match a.toBinary64?, b.toBinary64? with
    | some x, some y => .ok (x.less y)
    | _, _ => .error (.typeMismatch .lessThan [a.kind, b.kind])

end Value

end StackMachine
