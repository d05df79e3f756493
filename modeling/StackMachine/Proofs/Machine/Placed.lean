/-
Where frames stand. Every frame of a machine with confined hosts belongs to a
function of the table, has as many slots as that function asks for, and
stands where control can flow from the function's start. This holds of every
program, verified or not: nothing but a call or a start creates a frame, and
nothing but the flow of its own code moves it.

The invariant speaks of all frames, not of the running one alone, since a
return brings the one below it back.
-/
import Mathlib.Logic.Relation
import StackMachine.Proofs.Machine.Move
import StackMachine.Proofs.Machine.Session

namespace StackMachine

-- ======================================================== the invariant

/-- Control can flow from `a` to `b` inside one frame. -/
def Leads (p : Program) : Nat → Nat → Prop := Relation.ReflTransGen (Flow p)

/-- The frame has the slots of its function and stands where control can flow
from its start. -/
def Frame.Placed (p : Program) (f : Frame) : Prop :=
  ∃ g, p.functions[f.function]? = some g ∧ f.locals.size = g.slots
    ∧ Leads p g.entry f.ip

/-- A machine with this program and confined hosts. -/
structure Machine.Fit (raises : Fault → Prop) (p : Program)
    (m : Machine) : Prop where
  program : m.program = p
  confined : m.Confined raises

/-- A fit machine all of whose frames are placed. -/
structure Machine.Placed (raises : Fault → Prop) (p : Program)
    (m : Machine) : Prop
    extends Machine.Fit raises p m where
  frames : ∀ f ∈ m.calls.items, f.Placed p

-- ============================================================= one move

/-- A frame that follows the flow of its code keeps its place. -/
theorem Frame.Placed.shift {p : Program} {f : Frame} (h : f.Placed p)
    {ip : Nat} {locals : Array Value} (hflow : Flow p f.ip ip)
    (hsize : locals.size = f.locals.size) :
    Frame.Placed p { f with ip, locals } := by
  obtain ⟨g, hg, hslots, hleads⟩ := h
  exact ⟨g, hg, hsize.trans hslots, hleads.tail hflow⟩

/-- A called function has the slots that it asks for. -/
theorem Frame.size_entered {n : Nat} {g : Function} {args : Array Value}
    (hargs : args.size = g.params) (returnIp : Option Nat) :
    (Frame.entered n g args returnIp).locals.size = g.slots := by
  have hparams : g.params ≤ g.slots := Nat.le_max_right _ _
  simp only [Frame.entered, Array.size_append, Array.size_replicate]
  omega

theorem Frame.placed_entered {p : Program} {n : Nat} {g : Function}
    {args : Array Value} (hg : p.functions[n]? = some g)
    (hargs : args.size = g.params) (returnIp : Option Nat) :
    Frame.Placed p (.entered n g args returnIp) :=
  ⟨g, hg, size_entered hargs returnIp, Relation.ReflTransGen.refl⟩

theorem Program.functions_entry (p : Program) :
    p.functions[p.entry]? = some p.entryFunction := by
  rw [Array.getElem?_eq_getElem p.entry_lt]
  rfl

/-- The frame that a start puts on the call stack. -/
def Program.entryFrame (p : Program) : Frame :=
  .new p.entry p.entryFunction.entry p.entryFunction.params
    p.entryFunction.locals none

/-- The entry frame has the slots of its function, although it is given no
arguments. -/
theorem Program.size_entryFrame (p : Program) :
    p.entryFrame.locals.size = p.entryFunction.slots := by
  simp only [entryFrame, Frame.new, Array.size_replicate, Function.slots]

theorem Frame.placed_entry (p : Program) : Frame.Placed p p.entryFrame :=
  ⟨p.entryFunction, p.functions_entry, p.size_entryFrame,
    Relation.ReflTransGen.refl⟩

/-- What holds of every frame goes on to hold if the running frame keeps it
along the flow of its code and new frames have it. -/
theorem Move.forall {p : Program} {frames frames' : Array Frame}
    {P : Frame → Prop} (hmove : Move p frames frames')
    (hshift : ∀ {rest : Array Frame} {f : Frame} {ip : Nat}
      {locals : Array Value},
      frames = rest.push f → P f → Flow p f.ip ip →
        locals.size = f.locals.size →
      P { f with ip, locals })
    (hcallee : ∀ {n : Nat} {g : Function} {args : Array Value}
      (returnIp : Option Nat),
      p.functions[n]? = some g → args.size = g.params →
        P (.entered n g args returnIp))
    (h : ∀ f ∈ frames, P f) : ∀ f ∈ frames', P f := by
  intro f' hf'
  cases hmove with
  | stay => exact h f' hf'
  | @shift rest f ip locals hflow hsize =>
      have hf : P f := h f Array.mem_push_self
      rcases Array.mem_push.mp hf' with hrest | rfl
      · exact h f' (Array.mem_push_of_mem f hrest)
      · exact hshift rfl hf hflow hsize
  | @call rest f i n g args hi hcall hg hargs =>
      have hf : P f := h f Array.mem_push_self
      -- the caller is moved behind the call
      have hflow : Flow p f.ip (f.ip + 1) :=
        .on hi (Verification.next_mem_successors hcall (by decide) f.ip)
      rcases Array.mem_push.mp hf' with hcaller | rfl
      · rcases Array.mem_push.mp hcaller with hrest | rfl
        · exact h f' (Array.mem_push_of_mem f hrest)
        · exact hshift rfl hf hflow rfl
      · exact hcallee _ hg hargs
  | @ret rest f => exact h f' (Array.mem_push_of_mem f hf')

/-- No move takes a frame away from its place. -/
theorem Move.placed {p : Program} {frames frames' : Array Frame}
    (hmove : Move p frames frames') (h : ∀ f ∈ frames, f.Placed p) :
    ∀ f ∈ frames', f.Placed p :=
  hmove.forall (fun _ hf hflow hsize => hf.shift hflow hsize)
    (fun returnIp hg hargs => Frame.placed_entered hg hargs returnIp) h

-- ================================================================ starts

/-- The machine with empty stacks and no request for a halt. -/
def Machine.cleared (m : Machine) : Machine :=
  { m with operands := m.operands.clear, calls := m.calls.clear,
           haltRequested := false }

-- ============================================================== sessions

namespace Machine

variable {raises : Fault → Prop} {p : Program} {m : Machine}

/-- The running frame is one of those that are placed. -/
theorem Placed.running {rest : Array Frame} {f : Frame} (h : m.Placed raises p)
    (htop : m.calls.items = rest.push f) : f.Placed p := by
  refine h.frames f ?_
  rw [htop]
  exact Array.mem_push_self

/-- A step keeps the machine placed, since it keeps the program, the hosts and
the places of the frames. -/
theorem Placed.turned {m' : Machine} (h : m.Placed raises p)
    (ht : m.Turned m') :
    m'.Placed raises p := by
  have hmove := ht.move
  rw [h.program] at hmove
  exact ⟨⟨ht.program.trans h.program, ht.confined raises h.confined⟩,
    hmove.placed h.frames⟩

end Machine

namespace Action

variable {raises : Fault → Prop} {p : Program} {m : Machine}

theorem hostPushFrame_eq_ok {f : Frame}
    (h : m.calls.items.size < m.calls.limit) :
    hostPushFrame f m = .ok () { m with
      calls := { m.calls with items := m.calls.items.push f }
      status := .running } := by
  unfold hostPushFrame pushCall onCalls CallStack.push Stack.push
  simp only [Bind.bind, EStateM.bind, h, if_true]
  rfl

/-- A full call stack refuses a frame, at the place where the frame
would have gone on. -/
theorem hostPushFrame_eq_error {f : Frame}
    (h : ¬ m.calls.items.size < m.calls.limit) :
    hostPushFrame f m
      = .error (.fault ⟨f.ip, .callDepthExceeded m.calls.limit⟩) m := by
  unfold hostPushFrame pushCall onCalls CallStack.push Stack.push
  simp only [Bind.bind, EStateM.bind, h, if_false]
  rfl

/-- A start clears the machine and puts a frame of the entry function on the
empty call stack. -/
theorem enter_eq_ok (h : 0 < m.calls.limit) :
    enter m = .ok () (Machine.observe
      { m.cleared with
        calls := { m.calls with items := #[m.program.entryFrame] }
        status := .running }
      (.started m.program.entryFunction)) := by
  have hpush :=
    hostPushFrame_eq_ok (m := m.cleared) (f := m.program.entryFrame) h
  unfold enter
  simp only [Machine.cleared, Program.entryFrame] at hpush ⊢
  rw [hpush]
  rfl

/-- A machine without room for a single frame cannot be started. -/
theorem enter_eq_error (h : ¬ 0 < m.calls.limit) :
    enter m = .error
      (.fault
        ⟨m.program.entryFunction.entry, .callDepthExceeded m.calls.limit⟩)
      (noteFault
        ⟨m.program.entryFunction.entry, .callDepthExceeded m.calls.limit⟩
        m.cleared) := by
  have hpush :=
    hostPushFrame_eq_error (m := m.cleared) (f := m.program.entryFrame) h
  unfold enter
  simp only [Machine.cleared, Program.entryFrame] at hpush ⊢
  rw [hpush]
  rfl

/-- A start leaves one frame, that of the entry function, or none when there
is no room for it. -/
theorem enter_ensures {answer : Unit → Machine → Prop}
    {fault : Fault → Machine → Prop}
    (hroom : ∀ m', m'.program = m.program → m'.handlers = m.handlers →
      m'.calls.items = #[.new m.program.entry m.program.entryFunction.entry
        m.program.entryFunction.params m.program.entryFunction.locals none] →
          answer () m')
    (hfull : ∀ m', m'.program = m.program → m'.handlers = m.handlers →
      m'.calls.items = #[] →
      fault
        ⟨m.program.entryFunction.entry, .callDepthExceeded m.calls.limit⟩ m') :
    enter.Ensures m answer fault := by
  unfold Ensures
  by_cases h : 0 < m.calls.limit
  · rw [enter_eq_ok h]
    exact hroom _ rfl rfl rfl
  · rw [enter_eq_error h]
    exact hfull _ rfl rfl rfl

/-- A machine that is entered is placed, whatever it was before. -/
theorem enter_placed (h : m.Fit raises p) :
    enter.Ensures m (fun _ m' => m'.Placed raises p)
      (fun g m' => m'.Placed raises p ∧ g.cause.isOrdinary) := by
  have hfit : ∀ {m' : Machine}, m'.program = m.program →
      m'.handlers = m.handlers →
      m'.Fit raises p := fun hprogram hhandlers =>
    ⟨hprogram.trans h.program, h.confined.of_handlers hhandlers⟩
  refine enter_ensures ?_ ?_
  · intro m' hprogram hhandlers hcalls
    refine ⟨hfit hprogram hhandlers, fun f hf => ?_⟩
    rw [hcalls, h.program] at hf
    obtain rfl := Array.mem_singleton.mp hf
    exact Frame.placed_entry p
  · intro m' hprogram hhandlers hcalls
    refine ⟨⟨hfit hprogram hhandlers, fun f hf => ?_⟩, rfl⟩
    rw [hcalls] at hf
    cases Array.not_mem_empty f hf

end Action

/-- That all frames are placed is an invariant of sessions, with whatever it
implies for the faults that can be blamed on a placed machine. -/
theorem Session.placed_invariant {raises : Fault → Prop} {p : Program}
    {fault : Fault → Prop}
    (hordinary : ∀ {g}, g.cause.isOrdinary → fault g)
    (hblamed : ∀ {m : Machine} {g}, m.Placed raises p →
      m.Blamed raises g → fault g) :
    Session.Invariant (Machine.Fit raises p)
      (Machine.Placed raises p) fault where
  startable h := h.toFit
  enter h :=
    (Action.enter_placed h).mono (fun _ _ hm => hm)
      fun _ _ hg => ⟨hg.1, hordinary hg.2⟩
  step _ _ h :=
    (Action.step_ensures h.confined).mono (fun _ _ ht => h.turned ht)
      fun _ _ hg => ⟨h.turned hg.1, hblamed h hg.2⟩
  requestHalt h := ⟨⟨h.program, h.confined⟩, h.frames⟩
  clearHalt h := ⟨⟨h.program, h.confined⟩, h.frames⟩

end StackMachine
