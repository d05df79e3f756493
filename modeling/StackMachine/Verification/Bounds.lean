/-
Bounds: every index an instruction carries must name something that is
there. Constants and functions must be in their tables, a jump must stay in
the code or go right behind it, and a slot must belong to the function whose
body the instruction is in.
-/
import StackMachine.Verification.Defect

namespace StackMachine.Verification

/-- Whether an instruction's operand is an index below `bound`. -/
def operandBelow (i : Instruction) (bound : Nat) : Bool :=
  match i.index? with
  | some n => n < bound
  | none => false

/-- The defect of the slot that an instruction uses. -/
def slotDefects (p : Program) (index : Nat) (i : Instruction) : List Defect :=
  match p.owner? index with
  | none => [.outsideFunction index]
  | some (_, f) =>
    if operandBelow i f.slots then []
    else [.slotOutOfRange index i.operand f.slots]

/-- The defect of an instruction's operand. -/
def operandDefects (p : Program) (index : Nat)
    (i : Instruction) : List Defect :=
  match i.opcode.operandKind with
  | .constant =>
    if operandBelow i p.constants.size then []
    else [.constantOutOfRange index i.operand p.constants.size]
  | .function =>
    if operandBelow i p.functions.size then []
    else [.functionOutOfRange index i.operand p.functions.size]
  | .target =>
    if operandBelow i (p.length + 1) then []
    else [.jumpOutOfRange index i.operand p.length]
  | .slot => slotDefects p index i
  | .unused | .syscall => []

/-- Something about each instruction, in order. -/
def perInstruction (p : Program)
    (check : Nat → Instruction → List Defect) : List Defect :=
  p.code.toList.zipIdx.flatMap fun entry => check entry.2 entry.1

/-- The size and the operands of a program. -/
def boundsDefects (p : Program) : List Defect :=
  (if maxLength < p.length then [.programTooLarge p.length] else [])
    ++ perInstruction p (operandDefects p)

end StackMachine.Verification
