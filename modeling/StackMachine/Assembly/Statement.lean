/-
Statements: what a line asks for. A line holds any number of label
definitions and then at most one directive or instruction. The arguments of a
directive are taken from left to right, and the first that is missing or of
the wrong shape refuses the line; the operand of an instruction is shaped by
what its opcode's operand refers to.
-/
import StackMachine.Assembly.Literal
import StackMachine.Assembly.Token
import StackMachine.Value
import StackMachine.Opcode

namespace StackMachine.Assembly

/-- Where a declared function starts. -/
inductive Start where
  /-- At the next instruction. -/
  | here
  /-- Wherever a label is marked. -/
  | label (name : String)
  /-- At an absolute instruction index. -/
  | index (n : Nat)
  deriving DecidableEq

/-- The operand of an instruction as written. -/
inductive Operand where
  | absent
  | number (n : Int32)
  | label (name : String)
  | function (name : String)
  deriving DecidableEq

/-- One thing a line asks for. -/
inductive Statement where
  | label (name : String)
  | constant (value : Value)
  | function (name : String) (params locals : Nat) (start : Start)
  | entry (name : String)
  | instruction (opcode : Opcode) (operand : Operand)
  deriving DecidableEq

/-- Why a line is no sequence of statements. -/
inductive LineError where
  | unknownOpcode (token : String)
  | unknownDirective (token : String)
  | missingArgument (head : String) (expected : Nat)
  | invalidNumber (token : String)
  | invalidLiteral (kind : Kind) (token : String)
  | unexpectedToken (token : String)
  | unterminatedString
  deriving DecidableEq

/-- The wording of a line error. -/
def LineError.message : LineError → String
  | unknownOpcode token => s!"unknown opcode '{token}'"
  | unknownDirective token => s!"unknown directive '{token}'"
  | missingArgument head expected => s!"{head} expects {expected} argument(s)"
  | invalidNumber token => s!"invalid number '{token}'"
  | invalidLiteral kind token =>
    "invalid " ++ kind.name ++ s!" literal '{token}'"
  | unexpectedToken token => s!"unexpected token '{token}'"
  | unterminatedString => "unterminated string literal"

/-- A scanning error as an error of its line. -/
def LineError.ofToken : TokenError → LineError
  | .unterminatedString => .unterminatedString
  | .badEscape c => .unexpectedToken (String.ofList ['\\', c])

namespace Statement

-- ============================================================ arguments

/-- The refusal of a token where it stands. -/
def unexpected (token : Token) : Except LineError α :=
  .error (.unexpectedToken token.text)

/-- The number a token spells, or the refusal of its text. -/
def spelled (read : String → Option α) (text : String) : Except LineError α :=
  match read text with
  | some n => .ok n
  | none => .error (.invalidNumber text)

/-- A name from the front of the arguments. -/
def takeName (head : String)
    (expected : Nat) : List Token → Except LineError (String × List Token)
  | [] => .error (.missingArgument head expected)
  | .ident text :: rest => .ok (text, rest)
  | token :: _ => unexpected token

/-- A count from the front of the arguments. -/
def takeCount (head : String)
    (expected : Nat) : List Token → Except LineError (Nat × List Token)
  | [] => .error (.missingArgument head expected)
  | .number text :: rest => (·, rest) <$> spelled Literal.count? text
  | token :: _ => unexpected token

/-- Refuses the first argument that is left. -/
def takeEnd : List Token → Except LineError Unit
  | [] => .ok ()
  | token :: _ => unexpected token

-- =========================================================== directives

/-- The optional start of a declared function. -/
def takeStart : List Token → Except LineError (Start × List Token)
  | [] => .ok (.here, [])
  | .ident text :: rest => .ok (.label text, rest)
  | .number text :: rest =>
    (fun n => (.index n, rest)) <$> spelled Literal.count? text
  | token :: _ => unexpected token

/-- A function declaration: name, parameters, locals and an optional start. -/
def ofFunction (args : List Token) : Except LineError Statement := do
  let (name, args) ← takeName ".func" 3 args
  let (params, args) ← takeCount ".func" 3 args
  let (locals, args) ← takeCount ".func" 3 args
  let (start, args) ← takeStart args
  takeEnd args
  return function name params locals start

/-- The choice of the entry function. -/
def ofEntry (args : List Token) : Except LineError Statement := do
  let (name, args) ← takeName ".entry" 1 args
  takeEnd args
  return entry name

/-- The value of a literal of the given kind, when the token has the shape of
one and spells one. -/
def literal? : Kind → Token → Option Value
  | .int, .number text =>
    (Literal.integer? text).map fun n => .int (Int64.ofInt n)
  | .float, .number text => (Binary64.ofText? text).map .float
  | .float, .ident text => (Binary64.ofText? text).map .float
  | .decimal, .number text => (Decimal.ofText text).toOption.map .decimal
  | .bool, .ident text =>
    if Text.sameLetters text "true" then some (.bool true)
    else if Text.sameLetters text "false" then some (.bool false)
    else none
  | .string, .string text => some (.string text)
  | _, _ => none

/-- The kind of a constant. -/
def takeKind : List Token → Except LineError (Kind × List Token)
  | [] => .error (.missingArgument ".const" 2)
  | .ident text :: rest =>
    match Kind.ofName? (Text.small text) with
    | some kind => .ok (kind, rest)
    | none => unexpected (.ident text)
  | token :: _ => unexpected token

/-- The value of a constant; only null has no literal. -/
def takeLiteral
    (kind : Kind) : List Token → Except LineError (Value × List Token)
  | [] => .error (.missingArgument ".const" 2)
  | token :: rest =>
    match literal? kind token with
    | some value => .ok (value, rest)
    | none => .error (.invalidLiteral kind token.text)

/-- A constant: its kind and its literal. -/
def ofConstant (args : List Token) : Except LineError Statement := do
  let (kind, args) ← takeKind args
  let (value, args) ← if kind = .null then .ok (.null, args)
    else takeLiteral kind args
  takeEnd args
  return constant value

/-- A directive with its arguments. -/
def ofDirective (name : String)
    (args : List Token) : Except LineError Statement :=
  if name = "const" then ofConstant args
  else if name = "func" then ofFunction args
  else if name = "entry" then ofEntry args
  else .error (.unknownDirective ("." ++ name))

-- ========================================================= instructions

/-- The operand of an opcode that takes one. Jumps may name a label and calls
a function; every other operand is a number. -/
def takeOperand
    (opcode : Opcode) : List Token → Except LineError (Operand × List Token)
  | [] => .error (.missingArgument opcode.mnemonic 1)
  | .number text :: rest =>
    (fun n => (.number n, rest)) <$> spelled Literal.operand? text
  | .ident text :: rest =>
    match opcode.operandKind with
    | .target => .ok (.label text, rest)
    | .function => .ok (.function text, rest)
    | _ => unexpected (.ident text)
  | token :: _ => unexpected token

/-- An instruction with its operand. -/
def ofInstruction (mnemonic : String)
    (args : List Token) : Except LineError Statement :=
  match Opcode.ofMnemonic? mnemonic with
  | none => .error (.unknownOpcode mnemonic)
  | some opcode => do
    let (operand, args) ←
      if opcode.operandKind = .unused then .ok (.absent, args)
      else takeOperand opcode args
    takeEnd args
    return instruction opcode operand

-- ================================================================ lines

/-- The statements of a line's tokens. -/
def ofTokens : List Token → Except LineError (List Statement)
  | [] => .ok []
  | .label name :: rest => (label name :: ·) <$> ofTokens rest
  | .directive name :: args => (fun s => [s]) <$> ofDirective name args
  | .ident mnemonic :: args => (fun s => [s]) <$> ofInstruction mnemonic args
  | token :: _ => unexpected token

/-- The statements of a line. -/
def ofLine (line : List Char) : Except LineError (List Statement) :=
  match Token.scan line with
  | .error e => .error (.ofToken e)
  | .ok tokens => ofTokens tokens

end Statement

end StackMachine.Assembly
