/-
Programs under construction: constants, declared functions and code. Calls
name functions that may be declared later, functions may start at a label
that is bound later, and the entry may be chosen before it is declared; all
of that is settled when the program is built. What is settled first decides
which of several errors is reported: calls, then starts, then the entry, then
jumps, and last the parts of the program together.

Functions are found by a map of names, which is kept beside the table that
they are declared in.
-/
import StackMachine.Assembly.Code
import StackMachine.Assembly.Statement

namespace StackMachine.Assembly

/-- A declared function; a start at the next instruction is already an
index. -/
structure Declaration where
  name : String
  /-- An index, or a label to be bound. -/
  start : Nat ⊕ String
  params : Nat
  locals : Nat
  deriving DecidableEq

/-- A program under construction. -/
structure Draft where
  code : Code := {}
  constants : Array Value := #[]
  functions : Array Declaration := #[]
  /-- The indices of the functions by name, the latest first. -/
  names : List (String × Nat) := []
  /-- The calls by name, in order: where they stand and what they name. -/
  calls : Array (Nat × String) := #[]
  /-- The chosen entry function; the first one is the default. -/
  entry : Option String := none

namespace Draft

-- =========================================================== appending

/-- Appends a constant. Equal constants are not merged. -/
def constant (d : Draft) (v : Value) : Draft :=
  { d with constants := d.constants.push v }

/-- Appends an instruction. -/
def emit (d : Draft) (i : Instruction) : Draft :=
  { d with code := d.code.emit i }

/-- Appends an instruction whose operand will be the position of a label. -/
def emitJump (d : Draft) (opcode : Opcode) (label : String) : Draft :=
  { d with code := d.code.emitJump opcode label }

/-- Appends a call of a function by name. -/
def emitCall (d : Draft) (name : String) : Draft :=
  let position := d.code.position
  { d with code := d.code.emit { opcode := .call },
           calls := d.calls.push (position, name) }

/-- Appends a constant and an instruction that pushes it. -/
def pushConstant (d : Draft) (v : Value) : Except BuildError Draft := do
  let operand ← positionOperand d.constants.size
  return (d.constant v).emit { opcode := .pushConst, operand }

/-- Binds a label to the next instruction, once. -/
def mark (d : Draft) (name : String) : Except BuildError Draft := do
  let code ← d.code.mark name
  return { d with code }

/-- The index of a declared function. -/
def functionIndex? (d : Draft) (name : String) : Option Nat :=
  d.names.lookup name

/-- Declares a function, once. -/
def declare (d : Draft) (name : String) (params locals : Nat) (start : Start) :
    Except BuildError Draft :=
  match d.functionIndex? name with
  | some _ => .error (.duplicateFunction name)
  | none =>
    let start :=
      match start with
      | .here => .inl d.code.position
      | .index n => .inl n
      | .label label => .inr label
    .ok { d with
      functions := d.functions.push { name, start, params, locals }
      names := (name, d.functions.size) :: d.names }

/-- Chooses the entry function. -/
def setEntry (d : Draft) (name : String) : Draft :=
  { d with entry := some name }

-- ============================================================= building

/-- Puts the index of its function into one call. -/
def resolveCall (d : Draft) (instructions : Array Instruction)
    (call : Nat × String) :
    Except BuildError (Array Instruction) := do
  match d.functionIndex? call.2 with
  | none => .error (.undefinedFunction call.2 call.1)
  | some index =>
    let operand ← positionOperand index
    return Code.setOperand instructions call.1 operand

/-- The table entry of a declaration. -/
def resolveStart (d : Draft) (f : Declaration) : Except BuildError Function :=
  match f.start with
  | .inl entry =>
    .ok { name := f.name, entry, params := f.params, locals := f.locals }
  | .inr label =>
    match d.code.label? label with
    | some entry =>
      .ok { name := f.name, entry, params := f.params, locals := f.locals }
    | none => .error (.undefinedEntryLabel f.name label)

/-- The index of the entry function. -/
def resolveEntry (d : Draft) : Except BuildError Nat :=
  match d.entry with
  | none => .ok 0
  | some name =>
    match d.functionIndex? name with
    | some index => .ok index
    | none => .error (.undefinedEntry name)

/-- The finished program. -/
def build (d : Draft) : Except BuildError Program := do
  let instructions ← d.calls.foldlM d.resolveCall d.code.instructions
  let functions ← d.functions.mapM d.resolveStart
  let entry ← d.resolveEntry
  let code ← { d.code with instructions }.finish
  match Program.new d.constants code functions entry with
  | .ok p => return p
  | .error e => .error (.program e)

end Draft

end StackMachine.Assembly
