/-
Defects: what verification finds in a program. Those of one instruction name
its index; a program that is too large and a function that starts outside
the code concern none.
-/
import StackMachine.Program

namespace StackMachine.Verification

/-- The most instructions of a verified program. -/
def maxLength : Nat := 0x100000

/-- Something wrong with a program. -/
inductive Defect where
  | programTooLarge (size : Nat)
  | constantOutOfRange (index : Nat) (operand : Int32) (count : Nat)
  | functionOutOfRange (index : Nat) (operand : Int32) (count : Nat)
  | jumpOutOfRange (index : Nat) (target : Int32) (length : Nat)
  | slotOutOfRange (index : Nat) (operand : Int32) (slots : Nat)
  /-- A slot is used before the first function starts. -/
  | outsideFunction (index : Nat)
  | entryOutOfRange (function : Nat) (name : String) (entry length : Nat)
  | reservedOpcode (index : Nat) (opcode : Opcode)
  /-- A field that the opcode does not use is not zero. -/
  | unusedFieldSet (index : Nat)
  | unreachable (index : Nat)
  deriving DecidableEq

namespace Defect

/-- The instruction that a defect is about. -/
def index? : Defect → Option Nat
  | programTooLarge _ => none
  | constantOutOfRange index .. => some index
  | functionOutOfRange index .. => some index
  | jumpOutOfRange index .. => some index
  | slotOutOfRange index .. => some index
  | outsideFunction index => some index
  | entryOutOfRange .. => none
  | reservedOpcode index _ => some index
  | unusedFieldSet index => some index
  | unreachable index => some index

/-- The wording of a defect. -/
def message : Defect → String
  | programTooLarge size =>
    s!"program too large: {size} instructions (max {maxLength})"
  | constantOutOfRange index operand count =>
    s!"constant index {operand} out of range at instruction {index} "
      ++ s!"(pool size {count})"
  | functionOutOfRange index operand count =>
    s!"function index {operand} out of range at instruction {index} "
      ++ s!"(function count {count})"
  | jumpOutOfRange index target length =>
    s!"jump target {target} out of range at instruction {index} "
      ++ s!"(length {length})"
  | slotOutOfRange index operand slots =>
    s!"local index {operand} out of range at instruction {index} "
      ++ s!"({slots} slot(s))"
  | outsideFunction index =>
    s!"local access at instruction {index} is outside every function"
  | entryOutOfRange function name entry length =>
    s!"function {function} ('{name}') entry {entry} out of range "
      ++ s!"(length {length})"
  | reservedOpcode index opcode =>
    "reserved opcode " ++ opcode.mnemonic ++ s!" at instruction {index}"
  | unusedFieldSet index => s!"non-zero unused operand at instruction {index}"
  | unreachable index => s!"unreachable instruction at {index}"

end Defect

end StackMachine.Verification
