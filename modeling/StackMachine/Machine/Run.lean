/-
Runs. A run is step after step until the machine stops; a run from the entry
first clears the machine and pushes a frame for the entry function. Fuel
bounds the steps of a run and the nesting of runs that hosts start inside
system calls, and nothing else; an answer got with some fuel is the answer
with any more.
-/
import StackMachine.Machine.Step

namespace StackMachine

namespace Action

/-- Clears the machine and enters the entry function, whose slots are all
null: it has no caller to take arguments from. -/
def enter : Action Unit := fun m =>
  let m :=
    { m with operands := m.operands.clear, calls := m.calls.clear,
             haltRequested := false }
  let f := m.program.entryFunction
  match hostPushFrame
    (Frame.new m.program.entry f.entry f.params f.locals none) m with
  | .ok () m => .ok () (m.observe (.started f))
  | .error (.fault fault) m => .error (.fault fault) (noteFault fault m)
  | .error .outOfFuel m => .error .outOfFuel m

/-- Sets a machine going. -/
def advance : (fuel : Nat) → Advance → Action Progress
  | 0, _ => throw .outOfFuel
  | fuel + 1, .step => step (advance fuel)
  | fuel + 1, .run => fun m =>
    match step (advance fuel) m with
    | .ok .running m => advance fuel .run m
    | outcome => outcome
  | fuel + 1, .start => fun m =>
    match enter m with
    | .ok () m => advance fuel .run m
    | .error stop m => .error stop m

end Action

/-- More fuel than a run of any practical length uses. -/
def ampleFuel : Nat := 0x4000000000000000

/-- Runs a program from its entry with printing registered; the answer is what
is left on the operand stack, the top last. -/
def Program.run (p : Program) (fuel : Nat := ampleFuel)
    (limits : Limits := {}) :
    EStateM.Result Stop Machine (Array Value) :=
  match Action.advance fuel .start
    ((Machine.new p limits).register printId (.print none)) with
  | .ok _ m => .ok m.operands.items m
  | .error stop m => .error stop m

end StackMachine
