/-
Slots. Verification measures the slot of an instruction against the function
whose body the instruction lies in; the machine measures it against the
frame that executes it. The two are the same function as long as control
stays in one body, and nothing keeps it there: a jump, or running on from
the end of one body into the next, takes a frame into the code of another
function. A verified program may therefore still fault on a slot.

It does so in one way only. `slot_faults_iff` says that a run faults on a
slot exactly if it comes to an instruction whose slot the owner of the
instruction has and the running function has not (`AtForeignSlot`), and
`faults_not_slot` is a condition on the code that keeps all runs away from
there.
-/
import StackMachine.Proofs.Machine.Reaches
import StackMachine.Proofs.Verification.Findings

namespace StackMachine

/-- Whether a cause is a slot that a frame does not have. -/
def Cause.isSlot : Cause → Bool
  | .invalidLocal .. => true
  | _ => false

/-- What may go wrong in any program is not about slots. -/
theorem Cause.isSlot_of_isOrdinary {c : Cause} (h : c.isOrdinary) :
    c.isSlot = false := by
  cases c <;> first | rfl | cases h

/-- The machine is about to execute an instruction, in a frame of `own`, whose
slot `n` its owner has and `own` has not. A store needs a value before it
looks at the slot. -/
inductive Machine.AtForeignSlot (m : Machine) : Prop
  | intro {rest : Array Frame} {f : Frame} {i : Instruction} {n o : Nat}
    {own owner : Function} (hrunning : m.haltRequested = false)
    (htop : m.calls.items = rest.push f) (hi : m.program.code[f.ip]? = some i)
    (hkind : i.opcode.operandKind = .slot) (hn : i.index? = some n)
    (hown : m.program.functions[f.function]? = some own)
    (howner : m.program.owner? f.ip = some (o, owner))
    (hforeign : own.slots ≤ n) (hlt : n < owner.slots)
    (hvalue : i.opcode = .storeLocal → m.operands.items ≠ #[]) :
    AtForeignSlot m

namespace Action

variable {reenter : Reentry} {m : Machine} {f : Frame} {rest : Array Frame}
  {i : Instruction} {n : Nat}

-- ====================================================== slots out of range

/-- The fault of a slot that is out of range of the frame is one about slots,
except that a store without a value does not get that far. -/
def SlotFault (m : Machine) (i : Instruction) (g : Fault) : Prop :=
  g.cause.isSlot ↔ (i.opcode = .storeLocal → m.operands.items ≠ #[])

theorem slot_eq {site : Nat} (hn : i.index? = some n) :
    slot site i m = .ok n m := by
  unfold slot
  rw [hn]
  rfl

/-- A load from a slot out of range faults on it. -/
theorem loadLocal_slotFault (hop : i.opcode = .loadLocal)
    (htop : m.calls.items = rest.push f) (hn : i.index? = some n)
    (hout : f.locals.size ≤ n) :
    (loadLocal f.ip i).Ensures m (fun _ _ => False)
      (fun g _ => SlotFault m i g) := by
  refine Ensures.bind (fun k m' => k = n ∧ m' = m)
    (.ok (slot_eq hn) ⟨rfl, rfl⟩) ?_
  rintro n m ⟨rfl, rfl⟩
  refine Ensures.bind (fun g m' => g = f ∧ m' = m)
    (.ok (currentFrame_eq htop) ⟨rfl, rfl⟩) ?_
  rintro f m ⟨rfl, rfl⟩
  have hnone : f.locals[n]? = none := Array.getElem?_eq_none_iff.mpr hout
  refine Ensures.bind (fun _ _ => False) ?_ fun _ _ h => h.elim
  unfold Ensures onFrame Frame.getLocal
  rw [hnone]
  refine iff_of_true rfl fun hstore => ?_
  rw [hop] at hstore
  cases hstore

/-- A store to one faults on it if there is a value to store, and for want of
one otherwise. -/
theorem storeLocal_slotFault (hop : i.opcode = .storeLocal)
    (htop : m.calls.items = rest.push f) (hn : i.index? = some n)
    (hout : f.locals.size ≤ n) :
    (storeLocal f.ip i).Ensures m (fun _ _ => False)
      (fun g _ => SlotFault m i g) := by
  refine Ensures.bind (fun k m' => k = n ∧ m' = m)
    (.ok (slot_eq hn) ⟨rfl, rfl⟩) ?_
  rintro n m ⟨rfl, rfl⟩
  refine Ensures.bind (fun _ m' => m'.calls = m.calls ∧ m.operands.items ≠ #[])
    (popOperand_ensures ?_ ?_) ?_
  · intro v hv
    refine ⟨rfl, fun hempty => ?_⟩
    rw [hempty] at hv
    cases hv
  · intro hnone
    have hempty : m.operands.items = #[] := Array.back?_eq_none_iff.mp hnone
    exact iff_of_false Bool.false_ne_true fun h => h hop hempty
  · rintro v m₁ ⟨hcalls, hvalue⟩
    have htop₁ : m₁.calls.items = rest.push f := by
      rw [hcalls]
      exact htop
    refine Ensures.bind (fun g _ => g = f) (.ok (currentFrame_eq htop₁) rfl) ?_
    rintro f m₁ rfl
    refine Ensures.bind (fun _ _ => False) ?_ fun _ _ h => h.elim
    unfold Ensures onFrame Frame.setLocal
    rw [if_neg (Nat.not_lt.mpr hout)]
    exact iff_of_true rfl fun _ => hvalue

/-- Executing an instruction whose slot is out of range of the running
frame. -/
theorem execute_slotFault (hkind : i.opcode.operandKind = .slot)
    (htop : m.calls.items = rest.push f) (hn : i.index? = some n)
    (hout : f.locals.size ≤ n) :
    (execute reenter f.ip i).Ensures m (fun _ _ => False)
      (fun g _ => SlotFault m i g) := by
  unfold execute
  cases hop : i.opcode with
  | loadLocal => exact loadLocal_slotFault hop htop hn hout
  | storeLocal => exact storeLocal_slotFault hop htop hn hout
  | _ =>
      rw [hop] at hkind
      cases hkind

/-- An iteration that fetches such an instruction does what the
instruction does. -/
theorem iterate_slotFault (hrunning : m.haltRequested = false)
    (htop : m.calls.items = rest.push f) (hi : m.program.code[f.ip]? = some i)
    (hkind : i.opcode.operandKind = .slot) (hn : i.index? = some n)
    (hout : f.locals.size ≤ n) :
    (iterate reenter).Ensures m (fun _ _ => False)
      (fun g _ => SlotFault m i g) := by
  refine Ensures.fetched hrunning htop hi ?_
  -- fetching the instruction reports it and leaves the stacks alone
  exact Ensures.bind (m := m.observe (.instruction f.ip i m.operands.size))
    (fun _ _ => False)
    (execute_slotFault hkind htop hn hout) fun _ _ h => h.elim

/-- A step at an instruction whose slot is out of range of the running
frame. -/
theorem step_slotFault (hrunning : m.haltRequested = false)
    (htop : m.calls.items = rest.push f) (hi : m.program.code[f.ip]? = some i)
    (hkind : i.opcode.operandKind = .slot) (hn : i.index? = some n)
    (hout : f.locals.size ≤ n) :
    (step reenter).Ensures m (fun _ _ => False)
      (fun g _ => SlotFault m i g) := by
  have hiterate : (iterate reenter).Ensures { m with status := .running }
      (fun _ _ => False)
      (fun g _ => SlotFault m i g) :=
    iterate_slotFault hrunning htop hi hkind hn hout
  exact hiterate.step (fun _ h => h) (fun _ _ h => h) fun _ _ h => h

/-- A machine that is to halt does not fault. -/
theorem step_halting (hhalt : m.haltRequested) :
    (step reenter).Ensures m (fun _ _ => True) (fun _ _ => False) := by
  have hiterate : (iterate reenter).Ensures { m with status := .running }
      (fun _ _ => True)
      (fun _ _ => False) := by
    refine Ensures.get ?_
    rw [if_pos hhalt]
    trivial
  exact hiterate.step (fun _ h => h) (fun _ _ h => h) fun _ _ h => h

end Action

-- ================================================================ the runs

namespace Verification

variable {raises : Fault → Prop} {p : Program} {m : Machine}

/-- Only an instruction whose slot is out of range of the running frame
faults on a slot. -/
theorem slot_of_blamed (hraises : ∀ g, raises g → g.cause.isSlot = false)
    {g : Fault} (hblamed : m.Blamed raises g) (hslot : g.cause.isSlot) :
    ∃ (rest : Array Frame) (f : Frame) (i : Instruction),
      m.calls.items = rest.push f
      ∧ m.program.code[f.ip]? = some i ∧ i.opcode.operandKind = .slot
      ∧ ∀ n, i.index? = some n → f.locals.size ≤ n := by
  cases hblamed with
  | counter _ _ hg =>
      rw [hg] at hslot
      cases hslot
  | @instruction rest f i htop hi hblame =>
      cases hblame with
      | host hraised =>
          rw [hraises g hraised] at hslot
          cases hslot
      | ordinary hordinary =>
          rw [Cause.isSlot_of_isOrdinary hordinary] at hslot
          cases hslot
      | slot hkind hout => exact ⟨rest, f, i, htop, hi, hkind, hout⟩
      | _ => cases hslot

/-- A machine on the way of a run faults on a slot exactly if it stands at a
foreign one. -/
theorem Verified.stepFaults_iff (hp : Verified p)
    (hraises : ∀ g, raises g → g.cause.isSlot = false)
    (hm : m.Placed raises p) :
    (∃ g, m.StepFaults g ∧ g.cause.isSlot) ↔ m.AtForeignSlot := by
  obtain rfl := hm.program
  constructor
  · rintro ⟨g, ⟨reenter, m', hstep⟩, hslot⟩
    obtain ⟨-, hblamed⟩ := (Action.step_ensures hm.confined).of_fault hstep
    obtain ⟨rest, f, i, htop, hi, hkind, hout⟩ :=
      slot_of_blamed hraises hblamed hslot
    -- a machine that is to halt executes nothing
    have hrunning : m.haltRequested = false := by
      cases hhalt : m.haltRequested with
      | false => rfl
      | true => exact ((Action.step_halting hhalt).of_fault hstep).elim
    -- the verifier has found the slot in the function that owns the code
    obtain ⟨n, o, owner, hn, howner, hlt⟩ := hp.slots hi hkind
    obtain ⟨own, hown, hsize, -⟩ := hm.running htop
    have hfault :=
      (Action.step_slotFault hrunning htop hi hkind hn (hout n hn)).of_fault
        hstep
    exact ⟨hrunning, htop, hi, hkind, hn, hown, howner, hsize ▸ hout n hn, hlt,
      hfault.mp hslot⟩
  · rintro ⟨hrunning, htop, hi, hkind, hn, hown, -, hforeign, -, hvalue⟩
    obtain ⟨g, hg, hsize, -⟩ := hm.running htop
    obtain rfl := Option.some.inj (hown.symm.trans hg)
    rw [← hsize] at hforeign
    have hfaults :=
      @Action.step_slotFault (fun _ => throw .outOfFuel)
        m _ _ _ _ hrunning htop hi
          hkind hn hforeign
    obtain ⟨g, m', hstep, hfault⟩ := hfaults.exists_fault
    exact ⟨g, ⟨_, m', hstep⟩, hfault.mpr hvalue⟩

/-- A run of a verified program, with confined hosts that raise no fault about
slots themselves, never faults on a slot exactly if it never comes to a
foreign one. -/
theorem slot_faults_iff (hp : verify m.program = [])
    (hm : m.Confined fun g => g.cause.isSlot = false) :
    (∀ fuel g, m.runFault? fuel = some g → g.cause.isSlot = false)
      ↔ ∀ m', m.Reaches m' → ¬ m'.AtForeignSlot := by
  have hfit : m.Fit (fun g => g.cause.isSlot = false) m.program := ⟨rfl, hm⟩
  have hstep : ∀ {m'}, m.Reaches m' →
      ((∃ g, m'.StepFaults g ∧ g.cause.isSlot) ↔ m'.AtForeignSlot) :=
    fun hreach =>
      (verified_of_verify hp).stepFaults_iff (fun _ hg => hg)
        (hreach.placed hfit)
  constructor
  · intro hnever m' hreach hforeign
    obtain ⟨g, hfaults, hslot⟩ := (hstep hreach).mpr hforeign
    obtain ⟨fuel, hfuel⟩ :=
      (Machine.runFault?_iff hfit).mpr (.inr ⟨m', hreach, hfaults⟩)
    rw [hnever fuel g hfuel] at hslot
    cases hslot
  · intro hnever fuel g hfuel
    rcases (Machine.runFault?_iff hfit).mp ⟨fuel, hfuel⟩
      with ⟨m', henter⟩ | ⟨m', hreach, hfaults⟩
    · -- entering can only find the call stack full
      exact Cause.isSlot_of_isOrdinary
        ((Action.enter_placed hfit).of_fault henter).2
    · cases hslot : g.cause.isSlot with
      | false => rfl
      | true =>
          exact (hnever m' hreach ((hstep hreach).mp ⟨g, hfaults, hslot⟩)).elim

/-- Two functions, of which the first runs on into the second and uses a slot
of its there. -/
def runningOn : Program where
  constants := #[]
  code := #[{ opcode := .nop }, { opcode := .loadLocal }, { opcode := .halt }]
  functions := #[⟨"main", 0, 0, 0⟩, ⟨"g", 1, 0, 1⟩]
  entry := 0
  entry_lt := Nat.zero_lt_two

/-- Nothing is found wrong with it. The search is not structural, so the marks
that it leaves are computed by rewriting. -/
theorem verify_runningOn : verify runningOn = [] := by
  have hreachable : reachable runningOn = #[true, true, true] := by
    simp [reachable, mark, successors, runningOn, Program.length]
    decide
  unfold verify reachDefects
  rw [hreachable]
  decide

/-- A verified program may fault on a slot. -/
theorem slot_fault_of_verified :
    verify runningOn = []
      ∧ (Machine.new runningOn).runFault? 4 = some ⟨1, .invalidLocal 0 0⟩ :=
  ⟨verify_runningOn, by decide +kernel⟩

/-- It does so by coming to a slot that `main` has not. -/
theorem runningOn_reaches_foreign :
    ∃ m, (Machine.new runningOn).Reaches m ∧ m.AtForeignSlot := by
  have hp : verify (Machine.new runningOn).program = [] := verify_runningOn
  have hm : (Machine.new runningOn).Confined fun g => g.cause.isSlot
      = false := by
    intro entry hmem
    cases hmem
  have hfault : (Machine.new runningOn).runFault? 4
      = some ⟨1, .invalidLocal 0 0⟩ := by
    decide +kernel
  by_cases hnever : ∀ m, (Machine.new runningOn).Reaches m → ¬ m.AtForeignSlot
  · have hslot := (slot_faults_iff hp hm).mpr hnever 4 _ hfault
    cases hslot
  · simpa using hnever

-- ================================================== code that keeps its slots

/-- Wherever control can flow from the start of a function without leaving its
frame, the slots in use are its own. -/
def KeepsSlots (p : Program) : Prop :=
  ∀ {n : Nat} {g : Function} {k : Nat} {i : Instruction},
    p.functions[n]? = some g →
    Leads p g.entry k → p.code[k]? = some i → i.opcode.operandKind = .slot →
    ∃ slot, i.index? = some slot ∧ slot < g.slots

/-- No session of a program that keeps its slots faults on one. -/
theorem faults_not_slot (hp : KeepsSlots m.program) (hm : m.Confined raises)
    (hraises : ∀ g, raises g → g.cause.isSlot = false) (fuel : Nat)
    (requests : List Session.Request) :
    ∀ g ∈ Session.faults (.advance .start fuel :: requests) m,
      g.cause.isSlot = false := by
  intro g hmem
  have hinv : Session.Invariant (Machine.Fit raises m.program)
      (Machine.Placed raises m.program)
      fun g => g.cause.isSlot = false := by
    refine Session.placed_invariant
      (fun hg => Cause.isSlot_of_isOrdinary hg) ?_
    intro m' g hplaced hblamed
    cases hslot : g.cause.isSlot with
    | false => rfl
    | true =>
        obtain ⟨rest, f, i, htop, hi, hkind, hout⟩ :=
          slot_of_blamed hraises hblamed hslot
        -- the running frame has the slots of its function, and the code
        -- keeps to these
        obtain ⟨own, hown, hsize, hleads⟩ := hplaced.running htop
        rw [hplaced.program] at hi
        obtain ⟨slot, hslot, hlt⟩ := hp hown hleads hi hkind
        have hge := hout slot hslot
        omega
  exact hinv.faults_satisfy_of_start fuel requests ⟨rfl, hm⟩ hmem

end Verification

end StackMachine
