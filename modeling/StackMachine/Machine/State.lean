/-
Machines. A machine holds a program, the two stacks, the registered handlers
and the halt flag; it also holds its observer, which may keep the events and
ask for a halt at chosen instructions, and all that was printed.

An action changes a machine and gives an answer or stops. A stop keeps the
machine as it is: what an instruction did before it failed is not undone.
Running out of fuel is a stop of its own and never a fault.
-/
import StackMachine.Machine.Host

namespace StackMachine

-- ============================================================== machines

/-- The bounds of the two stacks. -/
structure Limits where
  operands : Nat := 4096
  calls : Nat := 1024

/-- What a machine last did. -/
inductive Status where
  | running | halted | faulted
  deriving DecidableEq

/-- The name of a status. -/
def Status.name : Status → String
  | running => "Running"
  | halted => "Halted"
  | faulted => "Faulted"

/-- What watches a machine. -/
structure Observer where
  /-- Whether events are kept. -/
  keeps : Bool := false
  /-- The events kept, the latest first. -/
  kept : List Event := []
  /-- The instructions seen. -/
  seen : Nat := 0
  /-- Whether to ask for a halt at the `n`-th instruction, counted from
  zero. -/
  haltsAt : Nat → Bool := fun _ => false

/-- Asks for a halt at every `n`-th instruction. -/
def Observer.every (n : Nat) (keeps : Bool) : Observer :=
  { keeps, haltsAt := fun k => (k + 1) % n == 0 }

/-- A machine. -/
structure Machine where
  program : Program
  operands : OperandStack
  calls : CallStack
  handlers : List (Int32 × Handler) := []
  haltRequested : Bool := false
  status : Status := .halted
  observer : Observer := {}
  /-- All that print handlers wrote. -/
  output : ByteArray := .empty

namespace Machine

/-- A machine that has not run yet. -/
def new (program : Program) (limits : Limits := {})
    (observer : Observer := {}) : Machine :=
  { program, observer, operands := { limit := limits.operands },
    calls := { limit := limits.calls } }

/-- The events kept, in order. -/
def events (m : Machine) : List Event := m.observer.kept.reverse

/-- The next instruction of the running frame. -/
def ip (m : Machine) : Nat :=
  match m.calls.top? with
  | some f => f.ip
  | none => 0

/-- The handler registered under a number. -/
def handler? (m : Machine) (id : Int32) : Option Handler :=
  m.handlers.lookup id

/-- Registers a handler in place of an earlier one of the same number. -/
def register (m : Machine) (id : Int32) (h : Handler) : Machine :=
  { m with handlers := (id, h) :: m.handlers.filter (·.1 ≠ id) }

/-- Reports an event to the observer, which may ask for a halt. -/
def observe (m : Machine) (e : Event) : Machine :=
  let o := m.observer
  let kept := if o.keeps then e :: o.kept else o.kept
  match e with
  | .instruction .. =>
    { m with
      observer := { o with kept, seen := o.seen + 1 }
      haltRequested := m.haltRequested || o.haltsAt o.seen }
  | _ => { m with observer := { o with kept } }

/-- Asks for a halt. -/
def requestHalt (m : Machine) : Machine := { m with haltRequested := true }

/-- Withdraws the request for a halt. -/
def clearHalt (m : Machine) : Machine := { m with haltRequested := false }

/-- A host error raised by the instruction being executed. -/
def hostFault (m : Machine) (message : String) : Fault :=
  { site := m.ip, cause := .hostError message }

end Machine

-- =============================================================== actions

/-- Why an action gives no answer. -/
inductive Stop where
  | fault (f : Fault)
  /-- The fuel ran out. -/
  | outOfFuel
  deriving DecidableEq

/-- What changes a machine and gives an answer, or stops. -/
abbrev Action := EStateM Stop Machine

namespace Action

/-- Stops with a fault. -/
def fail (site : Nat) (cause : Cause) : Action α :=
  throw (.fault ⟨site, cause⟩)

/-- An answer or a fault as an answer, so that what follows can look at it. -/
def attempt (a : Action α) : Action (Except Fault α) := fun m =>
  match a m with
  | .ok x m => .ok (.ok x) m
  | .error (.fault f) m => .ok (.error f) m
  | .error .outOfFuel m => .error .outOfFuel m

/-- Reports an event. -/
def observe (e : Event) : Action Unit := modify (·.observe e)

/-- An operation on the operand stack, whose failure is placed at an
instruction. -/
@[inline] def onOperands (site : Nat)
    (op : StackOp Value α) : Action α := fun m =>
  match op m.operands with
  | .ok a operands => .ok a { m with operands }
  | .error e operands => .error (.fault (.ofStack site e)) { m with operands }

/-- An operation on the call stack, whose failure is placed at an
instruction. -/
@[inline] def onCalls (site : Nat)
    (op : StackOp Frame α) : Action α := fun m =>
  match op m.calls with
  | .ok a calls => .ok a { m with calls }
  | .error e calls => .error (.fault (.ofStack site e)) { m with calls }

/-- Pushes a value. -/
def pushOperand (site : Nat) (v : Value) : Action Unit :=
  onOperands site (OperandStack.push v)

/-- Pops a value. -/
def popOperand (site : Nat) : Action Value := onOperands site OperandStack.pop

/-- Pops `n` values, the top one last, or none. -/
def popOperands (site n : Nat) : Action (Array Value) :=
  onOperands site (OperandStack.popMany n)

/-- An operation on values at an instruction. -/
def compute (site : Nat) (result : Except ValueError α) : Action α := fun m =>
  match result with
  | .ok a => .ok a m
  | .error e => .error (.fault (.ofValue site e)) m

/-- The running frame. -/
def currentFrame (site : Nat) : Action Frame := onCalls site CallStack.current

/-- Changes the running frame. -/
def setFrame (f : Frame) : Action Unit := fun m =>
  .ok () { m with calls := m.calls.replaceTop f }

/-- Moves the running frame to an instruction. -/
def moveTo (site ip : Nat) : Action Unit := do
  let f ← currentFrame site
  setFrame { f with ip }

/-- Pushes a frame. -/
def pushCall (site : Nat) (f : Frame) : Action Unit :=
  onCalls site (CallStack.push f)

/-- Pops the running frame. -/
def popCall (site : Nat) : Action Frame := onCalls site CallStack.pop

end Action

end StackMachine
