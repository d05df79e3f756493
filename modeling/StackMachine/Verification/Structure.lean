/-
Structure: functions start in the code or right behind it, no instruction has
a reserved opcode, and fields that an opcode does not use are zero.
-/
import StackMachine.Verification.Bounds

namespace StackMachine.Verification

/-- The defect of a function's start. -/
def entryDefects (p : Program) (f : Function) (index : Nat) : List Defect :=
  if f.entry ≤ p.length then []
  else [.entryOutOfRange index f.name f.entry p.length]

/-- Whether an instruction has a field that its opcode does not use and that
is not zero. -/
def setsUnusedField (i : Instruction) : Bool :=
  i.spare != 0 || (i.opcode.operandKind == .unused && i.operand != 0)

/-- The defects of an instruction's form. -/
def formDefects (index : Nat) (i : Instruction) : List Defect :=
  (if i.opcode.isReserved then [.reservedOpcode index i.opcode] else [])
    ++ if setsUnusedField i then [.unusedFieldSet index] else []

/-- The starts of the functions and the form of the instructions. -/
def structureDefects (p : Program) : List Defect :=
  (p.functions.toList.zipIdx.flatMap
    fun entry => entryDefects p entry.1 entry.2)
    ++ perInstruction p formDefects

end StackMachine.Verification
