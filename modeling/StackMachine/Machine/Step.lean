/-
One step of a machine: look at the halt flag and the running frame, execute
one instruction, and see whether the machine goes on. Instructions do not
move the frame themselves; each answers with a `Transfer`, which is carried
out afterwards. A host routine may rearrange the call stack, and then
`Transfer.next` leaves whatever frame is on top alone.

A host may set the machine going again from inside a system call. How that is
done is a parameter here, so a step needs no fuel of its own, and without
such a host it does not depend on the parameter at all.
-/
import StackMachine.Machine.State

namespace StackMachine

/-- Where an instruction sends the machine. -/
inductive Transfer where
  /-- To the next instruction, if the running frame is still the one that was
  executing, and was not moved. -/
  | next
  /-- To an absolute index, which may be out of range. -/
  | jump (target : Int32)
  /-- Into a new frame; the caller goes on behind the call. -/
  | call (frame : Frame)
  /-- Back to the caller. -/
  | ret
  /-- To the next instruction, and then to a stop. -/
  | halt

/-- How a host sets the machine going again. -/
abbrev Reentry := Advance → Action Progress

namespace Action

-- ======================================================== host requests

/-- Pops a value for the host. -/
def hostPop : Action Value := do
  let m ← get
  popOperand m.ip

/-- Pushes a value for the host. -/
def hostPush (v : Value) : Action Unit := do
  let m ← get
  pushOperand m.ip v

/-- Pushes a frame for the host; a failure is placed at the frame's own
instruction. -/
def hostPushFrame (f : Frame) : Action Unit := do
  pushCall f.ip f
  modify fun m => { m with status := .running }

/-- Carries out the requests of a routine. -/
def perform (reenter : Reentry) : Routine → Action Unit
  | .done => pure ()
  | .raise fault => throw (.fault fault)
  | .pop next => do
    let answer ← attempt hostPop
    perform reenter (next answer)
  | .push v next => do
    let answer ← attempt (hostPush v)
    perform reenter (next answer)
  | .requestHalt next => do
    modify Machine.requestHalt
    perform reenter next
  | .clearHalt next => do
    modify Machine.clearHalt
    perform reenter next
  | .position next => do
    let m ← get
    perform reenter (next m.ip)
  | .pushFrame frame next => do
    let answer ← attempt (hostPushFrame frame)
    perform reenter (next answer)
  | .advance how next => do
    let answer ← attempt (reenter how)
    perform reenter (next answer)
  | .register id calls next => do
    modify (·.register id (.routine calls 0))
    perform reenter next
  | .registerPrint id device next => do
    modify (·.register id (.print device))
    perform reenter next

/-- Writes bytes to the device of a print handler. A device without enough
room is filled up and fails. -/
def write (id : Int32) (device : Option Device) (bytes : ByteArray) :
    Action Unit := fun m =>
  match device with
  | none => .ok () { m with output := m.output ++ bytes }
  | some d =>
    if bytes.size ≤ d.room then
      let d := { d with room := d.room - bytes.size }
      let m := { m with output := m.output ++ bytes }
      .ok () (m.register id (.print (some d)))
    else
      let m := { m with output := m.output ++ bytes.extract 0 d.room }
      let m := m.register id (.print (some { d with room := 0 }))
      .error (.fault (m.hostFault d.message)) m

/-- Prints the top value and a line feed. -/
def print (id : Int32) (device : Option Device) : Action Unit := do
  let v ← hostPop
  write id device (v.toText ++ "\n").toUTF8

/-- Runs the handler registered under a number. -/
def syscall (reenter : Reentry) (site : Nat) (id : Int32) : Action Unit := do
  let m ← get
  match m.handler? id with
  | none => fail site (.unknownSyscall id)
  | some handler =>
    observe (.syscall site id)
    match handler with
    | .print device => print id device
    | .routine calls count =>
      modify (·.register id (.routine calls (count + 1)))
      perform reenter (calls count)

-- ========================================================= instructions

/-- Pushes a constant. -/
def pushConstant (site : Nat) (i : Instruction) : Action Transfer := do
  let m ← get
  match i.index?.bind (m.program.constants[·]?) with
  | none =>
    fail site (.invalidConstant i.operand.toInt64 m.program.constants.size)
  | some v =>
    pushOperand site v
    return .next

/-- Pops the right operand and then the left one, and pushes the result. -/
def arithmetic (site : Nat) (op : Arith) : Action Transfer := do
  let b ← popOperand site
  let a ← popOperand site
  let result ← compute site (Value.arith op a b)
  pushOperand site result
  return .next

/-- Pops the right operand and then the left one, and pushes whether the left
one is less. -/
def compareLess (site : Nat) : Action Transfer := do
  let b ← popOperand site
  let a ← popOperand site
  let result ← compute site (a.lessThan b)
  pushOperand site (.bool result)
  return .next

/-- The slot that an instruction names; a negative one is out of range of any
frame. -/
def slot (site : Nat) (i : Instruction) : Action Nat := do
  match i.index? with
  | some slot => return slot
  | none =>
    let m ← get
    let count := (m.calls.top?.map (·.locals.size)).getD 0
    fail site (.invalidLocal i.operand.toInt64 count)

/-- An operation on a frame at an instruction. -/
def onFrame (site : Nat) (result : Except StackError α) : Action α := fun m =>
  match result with
  | .ok a => .ok a m
  | .error e => .error (.fault (.ofStack site e)) m

/-- Pushes the value of a slot. -/
def loadLocal (site : Nat) (i : Instruction) : Action Transfer := do
  let slot ← slot site i
  let f ← currentFrame site
  let v ← onFrame site (f.getLocal slot)
  pushOperand site v
  return .next

/-- Pops a value into a slot. -/
def storeLocal (site : Nat) (i : Instruction) : Action Transfer := do
  let slot ← slot site i
  let v ← popOperand site
  let f ← currentFrame site
  let f ← onFrame site (f.setLocal slot v)
  setFrame f
  return .next

/-- Pops a truth value and jumps when it is false. -/
def jumpIfFalse (site : Nat) (target : Int32) : Action Transfer := do
  match ← popOperand site with
  | .bool true => return .next
  | .bool false => return .jump target
  | v => fail site (.value (.typeMismatch .branch [v.kind]))

/-- Pops the arguments of a function into a new frame; the last value pushed
is the last argument. -/
def call (site : Nat) (i : Instruction) : Action Transfer := do
  let m ← get
  match i.index?.bind fun n => m.program.functions[n]?.map fun f => (n, f) with
  | none =>
    fail site (.invalidFunction i.operand.toInt64 m.program.functions.size)
  | some (n, f) =>
    let args ← popOperands site f.params
    let frame ← onFrame site (Frame.entering n f args (some (site + 1)))
    return .call frame

/-- Executes one instruction. -/
def execute (reenter : Reentry) (site : Nat)
    (i : Instruction) : Action Transfer :=
  match i.opcode with
  | .nop => return .next
  | .pushConst => pushConstant site i
  | .add => arithmetic site .add
  | .sub => arithmetic site .sub
  | .mul => arithmetic site .mul
  | .div => arithmetic site .div
  | .cmpLt => compareLess site
  | .loadLocal => loadLocal site i
  | .storeLocal => storeLocal site i
  | .jump => return .jump i.operand
  | .jumpIfFalse => jumpIfFalse site i.operand
  | .call => call site i
  | .ret => return .ret
  | .syscall => do
    syscall reenter site i.operand
    return .next
  | .halt => return .halt
  | .cmpEq | .cmpNe | .cmpLe | .cmpGt | .cmpGe | .not | .and | .or =>
    fail site (.unknownOpcode i.opcode.code)

-- ============================================================ transfers

/-- Carries out a transfer; `depth` is the number of frames when the
instruction was fetched. -/
def carryOut (site depth : Nat) : Transfer → Action Unit
  | .next => do
    let m ← get
    if m.calls.size = depth then
      let f ← currentFrame site
      if f.ip = site then setFrame { f with ip := site + 1 }
  | .jump target => do
    if 0 ≤ target.toInt then moveTo site target.toInt.toNat
    else
      let m ← get
      fail site (.corruptedCounter target.toInt64 m.program.length)
  | .call frame => do
    moveTo site (site + 1)
    pushCall site frame
    let m ← get
    match m.program.functions[frame.function]? with
    | some f => observe (.called site f m.calls.size)
    | none => pure ()
  | .ret => do
    let _ ← popCall site
    let m ← get
    observe (.returned site m.calls.size)
  | .halt => do
    moveTo site (site + 1)
    modify Machine.requestHalt

/-- Whether a machine goes on. -/
def settle : Action Progress := fun m =>
  .ok (if m.haltRequested then .halted .haltRequested
    else if m.calls.isEmpty then .halted .completed
    else .running) m

/-- Executes an instruction and carries out where it sends the machine;
`depth` is the number of frames when it was fetched. -/
def dispatch (reenter : Reentry) (site depth : Nat)
    (i : Instruction) : Action Progress := do
  let transfer ← execute reenter site i
  carryOut site depth transfer
  settle

/-- One iteration, before its outcome is noted. Running past the last
instruction returns from the frame. -/
def iterate (reenter : Reentry) : Action Progress := do
  let m ← get
  if m.haltRequested then return .halted .haltRequested
  match m.calls.top? with
  | none => return .halted .completed
  | some f =>
    if f.ip = m.program.length then
      carryOut f.ip m.calls.size .ret
      settle
    else
      match m.program.code[f.ip]? with
      | none =>
        fail f.ip (.corruptedCounter (Int64.ofNat f.ip) m.program.length)
      | some i =>
        observe (.instruction f.ip i m.operands.size)
        dispatch reenter f.ip m.calls.size i

/-- Notes a fault. -/
def noteFault (f : Fault) (m : Machine) : Machine :=
  { m with status := .faulted }.observe (.faulted f)

/-- One step: an iteration whose outcome is noted and reported. -/
def step (reenter : Reentry) : Action Progress := fun m =>
  match iterate reenter { m with status := .running } with
  | .ok .running m => .ok .running m
  | .ok (.halted reason) m =>
    .ok (.halted reason)
      ({ m with status := .halted }.observe (.halted reason))
  | .error (.fault f) m => .error (.fault f) (noteFault f m)
  | .error .outOfFuel m => .error .outOfFuel m

end Action

end StackMachine
