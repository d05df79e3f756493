/-
Events: what a machine reports while it runs. An event carries what a
recorder needs to name it; `Event.record` words it as a line of a log, with a
level and named fields.
-/
import StackMachine.Machine.Fault

namespace StackMachine

/-- Why a machine stopped without a fault. -/
inductive HaltReason where
  /-- The last frame returned. -/
  | completed
  /-- A halt instruction ran, or the host asked. -/
  | haltRequested
  deriving DecidableEq

/-- The name of a reason. -/
def HaltReason.name : HaltReason → String
  | completed => "Completed"
  | haltRequested => "HaltRequested"

/-- Something that happened in a run. -/
inductive Event where
  /-- A run begins with its entry function. -/
  | started (entry : Function)
  /-- An instruction is about to be executed; the operand stack holds
  `operands` values. -/
  | instruction (index : Nat) (i : Instruction) (operands : Nat)
  /-- A frame was pushed; `depth` counts it. -/
  | called (index : Nat) (callee : Function) (depth : Nat)
  /-- A frame was popped; `depth` are left. -/
  | returned (index : Nat) (depth : Nat)
  /-- A host routine is about to be run. -/
  | syscall (index : Nat) (id : Int32)
  | halted (reason : HaltReason)
  | faulted (fault : Fault)
  deriving DecidableEq

/-- How much a log record matters. -/
inductive Level where
  | trace | debug | warn
  deriving DecidableEq

/-- The name of a level. -/
def Level.name : Level → String
  | trace => "TRACE"
  | debug => "DEBUG"
  | warn => "WARN"

/-- A line of a log. -/
structure Record where
  level : Level
  /-- The part of the program that wrote it. -/
  source : String := "tarn_vm"
  message : String
  /-- Named values, in order. -/
  fields : List (String × String)
  deriving DecidableEq

/-- An event as a line of a log. -/
def Event.record : Event → Record
  | started entry =>
    { level := .debug, message := "run started"
      fields := [("entry", entry.name), ("ip", toString entry.entry)] }
  | instruction index i operands =>
    { level := .trace, message := "dispatch"
      fields := [("at", toString index), ("op", i.opcode.mnemonic),
        ("operand", toString i.operand.toInt),
        ("stack_len", toString operands)] }
  | called index callee depth =>
    { level := .debug, message := "call"
      fields := [("at", toString index), ("callee", callee.name),
        ("depth", toString depth)] }
  | returned index depth =>
    { level := .trace, message := "return"
      fields := [("at", toString index), ("depth", toString depth)] }
  | syscall index id =>
    { level := .debug, message := "syscall"
      fields := [("at", toString index), ("id", toString id.toInt)] }
  | halted reason =>
    { level := .debug, message := "halted"
      fields := [("reason", reason.name)] }
  | faulted fault =>
    { level := .warn, message := "fault"
      fields := [("at", toString fault.site), ("error", fault.message)] }

end StackMachine
