/-
Faults: what stops a machine. Each has a cause and the index of the
instruction that raised it. The causes of the lower layers, values and
stacks, become faults by being given a place.
-/
import StackMachine.Machine.Stack

namespace StackMachine

/-- Why a machine stops. -/
inductive Cause where
  /-- A reserved opcode came up for execution. -/
  | unknownOpcode (code : UInt16)
  /-- No host routine has this number. -/
  | unknownSyscall (id : Int32)
  /-- A host routine failed for a reason of its own. -/
  | hostError (message : String)
  | stackUnderflow
  | stackOverflow (limit : Nat)
  | callDepthExceeded (limit : Nat)
  | invalidLocal (index : Int64) (count : Nat)
  | invalidConstant (index : Int64) (count : Nat)
  | invalidFunction (index : Int64) (count : Nat)
  /-- The next instruction lies outside the code. -/
  | corruptedCounter (target : Int64) (length : Nat)
  /-- A frame was needed and there was none. -/
  | corruptedCallStack
  | value (error : ValueError)
  deriving DecidableEq

/-- A cause and the instruction that raised it. -/
structure Fault where
  site : Nat
  cause : Cause
  deriving DecidableEq

namespace Fault

/-- An error of a stack, raised by an instruction. -/
def ofStack (site : Nat) (error : StackError) : Fault :=
  { site
    cause :=
      match error with
      | .underflow => .stackUnderflow
      | .overflow limit => .stackOverflow limit
      | .depthExceeded limit => .callDepthExceeded limit
      | .noFrame => .corruptedCallStack
      | .invalidSlot index count => .invalidLocal (Int64.ofNat index) count }

/-- An error of a value operation, raised by an instruction. -/
def ofValue (site : Nat) (error : ValueError) : Fault :=
  { site, cause := .value error }

/-- The wording of a fault. -/
def message (f : Fault) : String :=
  let place := " at instruction " ++ toString f.site
  match f.cause with
  | .unknownOpcode code =>
    "unknown opcode " ++ Text.hexPadded 4 code.toNat ++ place
  | .unknownSyscall id => s!"unknown syscall {id}" ++ place
  | .hostError message => "host error" ++ place ++ ": " ++ message
  | .stackUnderflow => "stack underflow" ++ place
  | .stackOverflow limit => s!"stack overflow (limit {limit})" ++ place
  | .callDepthExceeded limit =>
    s!"call depth exceeded (limit {limit})" ++ place
  | .invalidLocal index count =>
    s!"local index {index} out of range ({count} slots)" ++ place
  | .invalidConstant index count =>
    s!"constant index {index} out of range ({count} constants)" ++ place
  | .invalidFunction index count =>
    s!"function index {index} out of range ({count} functions)" ++ place
  | .corruptedCounter target length =>
    s!"corrupted program counter {target} (program length {length})" ++ place
  | .corruptedCallStack => "corrupted call stack" ++ place
  | .value (.typeMismatch operation found) =>
    "type mismatch in " ++ operation.name ++ place ++ ": " ++ Kind.listed found
  | .value .divisionByZero => "division by zero" ++ place
  | .value (.overflow op) => "arithmetic overflow in " ++ op.name ++ place

end Fault

end StackMachine
