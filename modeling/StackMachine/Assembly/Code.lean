/-
Code under construction. Instructions are appended one by one; labels are
bound to the position of the next instruction, and a jump may name a label
that is bound later. Finishing puts the bound positions into the jumps, in
the order in which they were appended, and refuses the first whose label was
never bound.
-/
import StackMachine.Program

namespace StackMachine.Assembly

/-- Why a program under construction is refused. -/
inductive BuildError where
  | duplicateLabel (label : String)
  | undefinedLabel (label : String) (index : Nat)
  | duplicateFunction (name : String)
  | undefinedFunction (name : String) (index : Nat)
  | undefinedEntry (name : String)
  | undefinedEntryLabel (function label : String)
  /-- A position is too large for an operand. -/
  | operandOverflow (position : Nat)
  | program (error : ProgramError)
  deriving DecidableEq

/-- The wording of a build error. -/
def BuildError.message : BuildError → String
  | duplicateLabel label => s!"duplicate label '{label}'"
  | undefinedLabel label index =>
    s!"undefined label '{label}' referenced by instruction {index}"
  | duplicateFunction name => s!"duplicate function '{name}'"
  | undefinedFunction name index =>
    s!"undefined function '{name}' referenced by instruction {index}"
  | undefinedEntry name => s!"entry function '{name}' is not declared"
  | undefinedEntryLabel function label =>
    s!"function '{function}' starts at undefined label '{label}'"
  | operandOverflow position =>
    s!"position {position} does not fit in an operand"
  | program error => error.message

/-- A position as an operand. -/
def positionOperand (position : Nat) : Except BuildError Int32 :=
  if position < 0x80000000 then .ok (Int32.ofNat position)
  else .error (.operandOverflow position)

/-- Code under construction. -/
structure Code where
  instructions : Array Instruction := #[]
  /-- The bound labels, the latest first. -/
  labels : List (String × Nat) := []
  /-- The jumps to named labels, in order: where they stand and what they
  name. -/
  jumps : Array (Nat × String) := #[]

namespace Code

/-- The index of the next instruction. -/
def position (c : Code) : Nat := c.instructions.size

/-- Appends an instruction. -/
def emit (c : Code) (i : Instruction) : Code :=
  { c with instructions := c.instructions.push i }

/-- Appends an instruction whose operand will be the position of a label. -/
def emitJump (c : Code) (opcode : Opcode) (label : String) : Code :=
  let position := c.position
  { c with
    instructions := c.instructions.push { opcode }
    jumps := c.jumps.push (position, label) }

/-- Where a label is bound. -/
def label? (c : Code) (name : String) : Option Nat := c.labels.lookup name

/-- Binds a label to the next instruction, once. -/
def mark (c : Code) (name : String) : Except BuildError Code :=
  match c.label? name with
  | some _ => .error (.duplicateLabel name)
  | none => .ok { c with labels := (name, c.position) :: c.labels }

/-- Gives an appended instruction another operand. -/
def setOperand (instructions : Array Instruction) (index : Nat)
    (operand : Int32) :
    Array Instruction :=
  instructions.modify index fun i => { i with operand }

/-- Puts the position of its label into one jump. -/
def resolve (c : Code) (instructions : Array Instruction)
    (jump : Nat × String) :
    Except BuildError (Array Instruction) := do
  match c.label? jump.2 with
  | none => .error (.undefinedLabel jump.2 jump.1)
  | some target =>
    let operand ← positionOperand target
    return setOperand instructions jump.1 operand

/-- The instructions with every jump resolved. -/
def finish (c : Code) : Except BuildError (Array Instruction) :=
  c.jumps.foldlM c.resolve c.instructions

end Code

end StackMachine.Assembly
