/-
What no host can break. Whatever a host does with a machine, and whatever the
routines do that it registers, inside as many system calls as they like:

- neither stack ever grows past its limit;
- a frame that a call or a start has put on the call stack belongs to a
  function of the table, and has as many slots as that function asks for, as
  long as it is there;
- arithmetic never finds the operand stack full, since it takes two values for
  the one that it puts back.

All three are about every moment of a session and not about its end. What one
moment does to the machine is told once (`Effect`), and the rest is read off
that: no effect breaks the bounds (`Effect.bounded`), and none changes a frame
in any other way than to move it or to fill its slots (`Effect.turn`). The
frames that a host pushes itself are its own affair; they are told apart by
what is being done.
-/
import StackMachine.Proofs.Machine.Moments

namespace StackMachine

-- =============================================================== effects

/-- What a moment in which this is being done makes of the machine. -/
inductive Machine.Effect (m : Machine) : Doing → Machine → Prop
  | none (doing : Doing) : Effect m doing m
  | pop (next : Except Fault Value → Routine) :
    Effect m (.performing (.pop next)) (Action.hostPop.leaves m)
  | push (v : Value) (next : Except Fault Unit → Routine) :
    Effect m (.performing (.push v next)) ((Action.hostPush v).leaves m)
  | requestHalt (next : Routine) :
    Effect m (.performing (.requestHalt next)) m.requestHalt
  | clearHalt (next : Routine) :
    Effect m (.performing (.clearHalt next)) m.clearHalt
  | pushFrame (f : Frame) (next : Except Fault Unit → Routine) :
    Effect m (.performing (.pushFrame f next))
      ((Action.hostPushFrame f).leaves m)
  | register (r : Routine) (id : Int32) (handler : Handler) :
    Effect m (.performing r) (m.register id handler)
  | step (h : m.hosted? = Option.none) :
    Effect m (.going .step) ((Action.step (Action.advance 0)).leaves m)
  | host {site : Nat} {r : Routine} {m' : Machine} (h : m.Hosts site r m') :
    Effect m (.going .step) m'
  | afterHost (site depth : Nat) (answer : Except Fault Unit) :
    Effect m (.returned answer) ((Action.afterHost site depth answer).leaves m)
  | clear : Effect m (.going .start) m.cleared
  | entry : Effect m .entering (Action.pushEntry.leaves m)

namespace Moment

variable {now later : Moment} {m : Machine}

/-- What follows an action finds the machine that the action leaves. -/
theorem after_machine {α : Type} {a : Action α}
    {doing : Except Fault α → Doing} {waiting : List Waiting}
    (h : after a m doing waiting = some later) :
    later.machine = a.leaves m := by
  unfold after at h
  unfold Action.leaves
  cases hrun : a m with
  | ok x m' =>
      rw [hrun] at h
      cases h
      rfl
  | error stop m' =>
      rw [hrun] at h
      cases stop with
      | fault g =>
          cases h
          rfl
      | outOfFuel => cases h

/-- A request of a routine does to the machine what the routine may do. -/
theorem request_effect {r : Routine} {waiting : List Waiting}
    (h : request r waiting m = some later) :
    m.Effect (.performing r) later.machine := by
  unfold request at h
  cases r with
  | pop next =>
      rw [after_machine h]
      exact .pop next
  | push v next =>
      rw [after_machine h]
      exact .push v next
  | pushFrame f next =>
      rw [after_machine h]
      exact .pushFrame f next
  | requestHalt next =>
      cases h
      exact .requestHalt next
  | clearHalt next =>
      cases h
      exact .clearHalt next
  | register id calls next =>
      cases h
      exact .register _ id _
  | registerPrint id device next =>
      cases h
      exact .register _ id _
  -- these do nothing to the machine by themselves
  | done | raise | position | advance =>
      cases h
      exact .none _

/-- Setting the machine going does to it what the going may do. -/
theorem go_effect {how : Advance} {waiting : List Waiting}
    (h : go how waiting m = some later) :
    m.Effect (.going how) later.machine := by
  cases how with
  | step =>
      unfold go at h
      cases hhosted : m.hosted? with
      | none =>
          rw [hhosted] at h
          rw [after_machine h]
          exact .step hhosted
      | some hosted =>
          obtain ⟨site, r, m'⟩ := hosted
          rw [hhosted] at h
          cases h
          exact .host (Machine.hosts_of_hosted hhosted)
  | run =>
      cases h
      exact .none _
  | start =>
      cases h
      exact .clear

/-- From one moment to the next, the machine changes only as what is being
done allows. -/
theorem next_effect (h : now.next? = some later) :
    now.machine.Effect now.doing later.machine := by
  obtain ⟨doing, waiting, m⟩ := now
  cases doing with
  | performing r => exact request_effect h
  | going how => exact go_effect h
  | entering =>
      rw [after_machine h]
      exact .entry
  | returned answer =>
      cases waiting with
      | nil => cases h
      | cons first waiting =>
          cases first with
          | syscall site depth =>
              rw [after_machine h]
              exact .afterHost site depth answer
          | host | run => cases h
  | stopped answer =>
      cases waiting with
      | nil => cases h
      | cons first waiting =>
          cases first with
          | host | run =>
              cases h
              exact .none _
          | syscall => cases h

end Moment

-- ================================================================ bounds

/-- Neither stack is larger than its limit. -/
structure Machine.Bounded (limits : Limits) (m : Machine) : Prop where
  operandLimit : m.operands.limit = limits.operands
  callLimit : m.calls.limit = limits.calls
  operands : m.operands.size ≤ limits.operands
  calls : m.calls.size ≤ limits.calls

/-- Bounds are about the two stacks alone. -/
theorem Machine.Bounded.of_stacks {limits : Limits} {m m' : Machine}
    (h : m.Bounded limits) (hoperands : m'.operands = m.operands)
    (hcalls : m'.calls = m.calls) : m'.Bounded limits := by
  obtain ⟨hoperandLimit, hcallLimit, hsize, hdepth⟩ := h
  rw [← hoperands] at hoperandLimit hsize
  rw [← hcalls] at hcallLimit hdepth
  exact ⟨hoperandLimit, hcallLimit, hsize, hdepth⟩

/-- The operation keeps to the limit of a stack. -/
def StackOp.KeepsLimit {α β : Type} (op : StackOp α β) : Prop :=
  ∀ s : Stack α, s.size ≤ s.limit →
    match op s with
    | .ok _ s' | .error _ s' => s'.limit = s.limit ∧ s'.size ≤ s.limit

/-- A push is refused where it would go past the limit. -/
theorem Stack.push_keepsLimit {α : Type} (full : Nat → StackError) (a : α) :
    StackOp.KeepsLimit (Stack.push full a) := by
  intro s hs
  unfold Stack.push
  by_cases hroom : s.items.size < s.limit
  · simp only [hroom, if_true]
    refine ⟨trivial, ?_⟩
    show (s.items.push a).size ≤ s.limit
    rw [Array.size_push]
    omega
  · simp only [hroom, if_false]
    exact ⟨trivial, hs⟩

/-- A pop makes the stack no larger. -/
theorem Stack.pop_keepsLimit {α : Type} (empty : StackError) :
    StackOp.KeepsLimit (Stack.pop (α := α) empty) := by
  intro s hs
  unfold Stack.pop
  cases s.items.back? with
  | none => exact ⟨rfl, hs⟩
  | some a =>
      refine ⟨rfl, Nat.le_trans ?_ hs⟩
      show s.items.pop.size ≤ s.items.size
      rw [Array.size_pop]
      omega

/-- Neither does taking several at once, whether or not there are enough. -/
theorem Stack.popMany_keepsLimit {α : Type} (empty : StackError) (n : Nat) :
    StackOp.KeepsLimit (Stack.popMany (α := α) empty n) := by
  intro s hs
  unfold Stack.popMany
  by_cases hn : n ≤ s.items.size
  · simp only [hn, if_true]
    refine ⟨trivial, Nat.le_trans ?_ hs⟩
    show (s.items.shrink (s.items.size - n)).size ≤ s.items.size
    simp
  · simp only [hn, if_false]
    exact ⟨trivial, hs⟩

namespace Action

variable {limits : Limits} {m m' : Machine} {site : Nat}

/-- An operation that keeps to the limit of a stack keeps the machine
within its own. -/
theorem bounded_onOperands {α : Type} {op : StackOp Value α}
    (hop : op.KeepsLimit) (hm : m.Bounded limits) :
    ((onOperands site op).leaves m).Bounded limits := by
  have hkeeps :=
    hop m.operands
      (Nat.le_trans hm.operands (Nat.le_of_eq hm.operandLimit.symm))
  unfold leaves onOperands
  cases hrun : op m.operands with
  | ok x operands =>
      rw [hrun] at hkeeps
      exact ⟨hkeeps.1.trans hm.operandLimit, hm.callLimit,
        hm.operandLimit ▸ hkeeps.2, hm.calls⟩
  | error e operands =>
      rw [hrun] at hkeeps
      exact ⟨hkeeps.1.trans hm.operandLimit, hm.callLimit,
        hm.operandLimit ▸ hkeeps.2, hm.calls⟩

/-- The same for the call stack. -/
theorem bounded_onCalls {α : Type} {op : StackOp Frame α} (hop : op.KeepsLimit)
    (hm : m.Bounded limits) : ((onCalls site op).leaves m).Bounded limits := by
  have hkeeps :=
    hop m.calls (Nat.le_trans hm.calls (Nat.le_of_eq hm.callLimit.symm))
  unfold leaves onCalls
  cases hrun : op m.calls with
  | ok x calls =>
      rw [hrun] at hkeeps
      exact ⟨hm.operandLimit, hkeeps.1.trans hm.callLimit, hm.operands,
        hm.callLimit ▸ hkeeps.2⟩
  | error e calls =>
      rw [hrun] at hkeeps
      exact ⟨hm.operandLimit, hkeeps.1.trans hm.callLimit, hm.operands,
        hm.callLimit ▸ hkeeps.2⟩

theorem bounded_observe (hm : m.Bounded limits) (e : Event) :
    (m.observe e).Bounded limits := by
  cases e <;> exact hm.of_stacks rfl rfl

/-- A frame in the place of the running one leaves the call stack as
high as it was. -/
theorem bounded_setFrame (hm : m.Bounded limits)
    (hnonempty : m.calls.items ≠ #[]) (f : Frame) :
    Machine.Bounded limits { m with calls := m.calls.replaceTop f } := by
  refine ⟨hm.operandLimit, hm.callLimit, hm.operands, Nat.le_trans ?_ hm.calls⟩
  have hpos := Array.size_pos_iff.mpr hnonempty
  show (m.calls.items.pop.push f).size ≤ m.calls.items.size
  rw [Array.size_push, Array.size_pop]
  omega

/-- Steps keep to the limits, as far as system calls do. -/
theorem lockstep_bounded :
    Lockstep (Always (Machine.Bounded limits)) fun _ => False where
  program h := by rw [h.1]
  frames h := by rw [h.1]
  popOperand h _ :=
    h.inStep fun _ hm => bounded_onOperands (Stack.pop_keepsLimit _) hm
  popOperands h _ n :=
    h.inStep fun _ hm => bounded_onOperands (Stack.popMany_keepsLimit _ n) hm
  pushOperand h _ v :=
    h.inStep fun _ hm => bounded_onOperands (Stack.push_keepsLimit _ v) hm
  setFrame h hnonempty f := ⟨by rw [h.1], bounded_setFrame h.2 hnonempty f⟩
  pushCall h _ f :=
    h.inStep fun _ hm => bounded_onCalls (Stack.push_keepsLimit _ f) hm
  popCall h _ :=
    h.inStep fun _ hm => bounded_onCalls (Stack.pop_keepsLimit _) hm
  observe h e := ⟨by rw [h.1], bounded_observe h.2 e⟩
  requestHalt h := ⟨by rw [h.1], h.2.of_stacks rfl rfl⟩
  haltRequested h := by rw [h.1]
  operandCount h := by rw [h.1]
  setStatus h _ := ⟨by rw [h.1], h.2.of_stacks rfl rfl⟩

theorem bounded_hostPop (hm : m.Bounded limits) :
    (hostPop.leaves m).Bounded limits :=
  (lockstep_bounded.hostPop ⟨rfl, hm⟩).leaves

/-- A host that pushes a value is refused where there is no room. -/
theorem bounded_hostPush (hm : m.Bounded limits) (v : Value) :
    ((hostPush v).leaves m).Bounded limits :=
  (lockstep_bounded.hostPush ⟨rfl, hm⟩ v).leaves

/-- So is one that pushes a frame. -/
theorem bounded_hostPushFrame (hm : m.Bounded limits) (f : Frame) :
    ((hostPushFrame f).leaves m).Bounded limits := by
  have hstep : InStep (Always (Machine.Bounded limits)) (fun _ => False) Eq m m
      (hostPushFrame f)
      (hostPushFrame f) :=
    .bind (lockstep_bounded.pushCall ⟨rfl, hm⟩ f.ip f) fun _ _ _ _ h =>
      ⟨rfl, lockstep_bounded.setStatus h .running⟩
  exact hstep.leaves

/-- A printing handler takes one value, and writing it touches neither
stack, whether or not the device fails. -/
theorem bounded_print (hm : m.Bounded limits) (id : Int32)
    (device : Option Device) :
    ((print id device).leaves m).Bounded limits := by
  have hstep : InStep (Always (Machine.Bounded limits)) (fun _ => False) Eq m m
      (print id device)
      (print id device) :=
    lockstep_bounded.print
      (fun h _ => ⟨by rw [h.1], h.2.of_stacks rfl rfl⟩)
      (fun h _ _ => ⟨by rw [h.1], h.2.of_stacks rfl rfl⟩) ⟨rfl, hm⟩ id device
  exact hstep.leaves

/-- A system call that runs no routine of a host keeps within the limits. -/
theorem bounded_syscall {reenter : Reentry} {id : Int32}
    (hm : m.Bounded limits)
    (h : ∀ calls count, m.handler? id ≠ some (.routine calls count)) :
    ((syscall reenter site id).leaves m).Bounded limits := by
  cases hfound : m.handler? id with
  | none =>
      rw [leaves_congr (syscall_unknown hfound)]
      exact hm
  | some handler =>
      cases handler with
      | print device =>
          rw [leaves_congr (syscall_print hfound)]
          exact bounded_print (bounded_observe hm (.syscall site id)) id device
      | routine calls count => exact absurd hfound (h calls count)

/-- A step that runs no routine keeps to the limits. -/
theorem bounded_step_unhosted {reenter : Reentry} (h : m.hosted? = none)
    (hm : m.Bounded limits) :
    ((step reenter).leaves m).Bounded limits := by
  have hserved : Served (Always (Machine.Bounded limits))
      (fun _ => False) reenter
      { m with status := .running } { m with status := .running } := by
    intro f i hhalt htop hi hop
    have hrunning : Machine.Bounded limits { m with status := .running } :=
      hm.of_stacks rfl rfl
    have hplain := Machine.not_routine_of_unhosted h hhalt htop hi hop
    exact .of_leaves (bounded_syscall (bounded_observe hrunning _) hplain)
  exact (lockstep_bounded.step ⟨rfl, hm⟩ hserved).leaves

/-- What is left of a step when its host is done keeps within the limits. -/
theorem bounded_afterHost (hm : m.Bounded limits) (site depth : Nat)
    (answer : Except Fault Unit) :
    ((afterHost site depth answer).leaves m).Bounded limits := by
  have hm' : Always (Machine.Bounded limits) m m := ⟨rfl, hm⟩
  unfold afterHost
  cases answer with
  | ok _ =>
      have hrest : InStep (Always (Machine.Bounded limits))
          (fun _ => False) Eq m m
          (do carryOut site depth .next; settle)
          (do carryOut site depth .next; settle) :=
        .bind (lockstep_bounded.carryOut hm' site depth .next) fun _ _ _ _ h =>
          lockstep_bounded.settle h
      exact (lockstep_bounded.noted hrest).leaves
  | error fault =>
      have hrest : InStep (Always (Machine.Bounded limits))
          (fun _ => False) Eq m m
          (throw (.fault fault) : Action Progress) (throw (.fault fault)) :=
        .inr ⟨rfl, hm'⟩
      exact (lockstep_bounded.noted hrest).leaves

/-- The entry frame is pushed only where there is room. -/
theorem bounded_pushEntry (hm : m.Bounded limits) :
    (pushEntry.leaves m).Bounded limits := by
  have hpushed := bounded_hostPushFrame hm m.program.entryFrame
  unfold leaves at hpushed
  unfold leaves pushEntry
  cases hrun : hostPushFrame m.program.entryFrame m with
  | ok _ m' =>
      rw [hrun] at hpushed
      exact bounded_observe hpushed _
  | error stop m' =>
      rw [hrun] at hpushed
      cases stop with
      | fault g =>
          have hfaulted : Machine.Bounded limits
              { m' with status := .faulted } :=
            hpushed.of_stacks rfl rfl
          exact bounded_observe hfaulted _
      | outOfFuel => exact hpushed

end Action

namespace Machine

variable {limits : Limits} {m m' : Machine} {doing : Doing}

/-- Nothing that can happen to a machine breaks its limits. -/
theorem Effect.bounded (h : m.Effect doing m') (hm : m.Bounded limits) :
    m'.Bounded limits := by
  cases h with
  | none => exact hm
  | pop next => exact Action.bounded_hostPop hm
  | push v next => exact Action.bounded_hostPush hm v
  | pushFrame f next => exact Action.bounded_hostPushFrame hm f
  | requestHalt | clearHalt | register =>
      exact hm.of_stacks rfl rfl
  | step hhosted => exact Action.bounded_step_unhosted hhosted hm
  | host hhosts =>
      cases hhosts
      exact hm.of_stacks rfl rfl
  | afterHost site depth answer =>
      exact Action.bounded_afterHost hm site depth answer
  | clear =>
      exact ⟨hm.operandLimit, hm.callLimit, Nat.zero_le _, Nat.zero_le _⟩
  | entry => exact Action.bounded_pushEntry hm

end Machine

-- ================================================================ frames

/-- The frame at a place of the call stack belongs to this function and has so
many slots. -/
def FrameAt (frames : Array Frame) (k function slots : Nat) : Prop :=
  ∃ f, frames[k]? = some f ∧ f.function = function ∧ f.locals.size = slots

/-- A frame stands below the running one or is that one. -/
theorem frameAt_push {rest : Array Frame} {f : Frame}
    {k function slots : Nat} :
    FrameAt (rest.push f) k function slots
      ↔ FrameAt rest k function slots
        ∨ k = rest.size ∧ f.function = function ∧ f.locals.size = slots := by
  unfold FrameAt
  rw [Array.getElem?_push]
  by_cases hk : k = rest.size
  · simp [hk]
  · simp [hk]

/-- What a moment may do to the frames, the host's own pushes aside. -/
inductive Turn (p : Program) : Array Frame → Array Frame → Prop
  | move {frames frames' : Array Frame} (h : Move p frames frames') :
    Turn p frames frames'
  /-- A system call that has returned moves whatever frame stands at it. -/
  | nudge (rest : Array Frame) (f : Frame) (ip : Nat) :
    Turn p (rest.push f) (rest.push { f with ip })
  | entry (frames : Array Frame) : Turn p frames (frames.push p.entryFrame)
  | clear (frames : Array Frame) : Turn p frames #[]

namespace Turn

variable {p : Program} {frames frames' : Array Frame} {k function slots : Nat}

/-- A frame keeps its function and the number of its slots as long as it
is on the stack. -/
theorem frameAt (h : Turn p frames frames') (hk : k < frames'.size)
    (hf : FrameAt frames k function slots) :
    FrameAt frames' k function slots := by
  cases h with
  | move hmove =>
      cases hmove with
      | stay => exact hf
      | shift _ hsize =>
          rw [frameAt_push] at hf ⊢
          rcases hf with hrest | ⟨hlast, hfunction, hslots⟩
          · exact .inl hrest
          · exact .inr ⟨hlast, hfunction, hsize.trans hslots⟩
      -- both the caller and the new frame stand above the others
      | call =>
          rw [frameAt_push] at hf
          rw [frameAt_push, frameAt_push]
          exact .inl hf
      | ret =>
          rcases frameAt_push.mp hf with hrest | ⟨hlast, -⟩
          · exact hrest
          · omega
  | nudge =>
      rw [frameAt_push] at hf ⊢
      exact hf
  | entry => exact frameAt_push.mpr (.inl hf)
  | clear => exact absurd hk (Nat.not_lt_zero k)

/-- A stack that grows has got a frame of a function of the table, with the
slots that it asks for. -/
theorem frameAt_new (h : Turn p frames frames')
    (hgrown : frames.size < frames'.size) :
    ∃ n g, p.functions[n]? = some g
      ∧ FrameAt frames' frames.size n g.slots := by
  cases h with
  | move hmove =>
      cases hmove with
      | stay => omega
      | shift =>
          rw [Array.size_push, Array.size_push] at hgrown
          omega
      | @call rest f i n g args hi hcall hg hargs =>
          refine ⟨n, g, hg,
            frameAt_push.mpr (.inr ⟨?_, rfl, Frame.size_entered hargs _⟩)⟩
          rw [Array.size_push, Array.size_push]
      | ret =>
          rw [Array.size_push] at hgrown
          omega
  -- a frame that is moved is not a new one
  | nudge =>
      rw [Array.size_push, Array.size_push] at hgrown
      omega
  | entry =>
      exact ⟨p.entry, p.entryFunction, p.functions_entry,
        frameAt_push.mpr (.inr ⟨rfl, rfl, p.size_entryFrame⟩)⟩
  | clear => exact absurd hgrown (Nat.not_lt_zero _)

end Turn

/-- Every effect is a turn of the frames, or the host has pushed a frame of
its own. -/
theorem Machine.Effect.turn {m m' : Machine} {doing : Doing}
    (h : m.Effect doing m') :
    m'.program = m.program ∧ (Turn m.program m.calls.items m'.calls.items
      ∨ ∃ f next, doing = .performing (.pushFrame f next)
        ∧ m'.calls.items = m.calls.items.push f) := by
  have hbeside : ∀ {m'}, m.Beside m' → m'.program = m.program
      ∧ (Turn m.program m.calls.items m'.calls.items ∨ ∃ f next,
        doing = .performing (.pushFrame f next)
          ∧ m'.calls.items = m.calls.items.push f) := by
    intro m' hb
    refine ⟨hb.program, .inl (.move ?_)⟩
    rw [hb.calls]
    exact .stay _
  cases h with
  | none => exact hbeside (.refl m)
  | pop next =>
      have hpop : Action.hostPop.Ensures m (fun _ m' => m.Beside m')
          (fun _ m' => m.Beside m') :=
        Action.hostPop_ensures.mono (fun _ _ hb => hb) fun _ _ hb => hb.1
      exact hbeside hpop.leaves
  | push v next =>
      have hpush : (Action.hostPush v).Ensures m (fun _ m' => m.Beside m')
          (fun _ m' => m.Beside m') :=
        (Action.hostPush_ensures v).mono (fun _ _ hb => hb) fun _ _ hb => hb.1
      exact hbeside hpush.leaves
  -- only here can a frame come from anything but the code
  | pushFrame f next =>
      by_cases hroom : m.calls.items.size < m.calls.limit
      · rw [Action.leaves_of_ok (Action.hostPushFrame_eq_ok hroom)]
        exact ⟨rfl, .inr ⟨f, next, rfl, rfl⟩⟩
      · rw [Action.leaves_of_error (Action.hostPushFrame_eq_error hroom)]
        exact hbeside (.refl m)
  | requestHalt | clearHalt => exact hbeside (.of_eq rfl rfl rfl)
  | register => exact ⟨rfl, .inl (.move (.stay _))⟩
  | step hhosted =>
      have hturned : m.Turned ((Action.step (Action.advance 0)).leaves m) :=
        (Action.step_unhosted_ensures hhosted).leaves
      exact ⟨hturned.program, .inl (.move hturned.move)⟩
  | host hhosts =>
      cases hhosts
      exact ⟨rfl, .inl (.move (.stay _))⟩
  | afterHost site depth answer =>
      obtain ⟨hprogram, hsame | ⟨rest, f, ip, htop, htop'⟩⟩ :=
        (Action.afterHost_ensures (m := m) site depth answer).leaves
      · refine ⟨hprogram, .inl (.move ?_)⟩
        rw [hsame]
        exact .stay _
      · refine ⟨hprogram, .inl ?_⟩
        rw [htop, htop']
        exact .nudge rest f ip
  | clear => exact ⟨rfl, .inl (.clear _)⟩
  | entry =>
      by_cases hroom : m.calls.items.size < m.calls.limit
      · rw [Action.leaves_of_ok (Action.pushEntry_eq_ok hroom)]
        exact ⟨rfl, .inl (.entry _)⟩
      · rw [Action.leaves_of_error (Action.pushEntry_eq_error hroom)]
        exact hbeside (.of_eq rfl rfl rfl)

-- =========================================================== arithmetic

/-- The instructions that take two values and put one back. -/
def Opcode.isBinary : Opcode → Bool
  | .add | .sub | .mul | .div | .cmpLt => true
  | _ => false

namespace Action

variable {m : Machine} {site : Nat} {f : Frame} {rest : Array Frame}
  {i : Instruction}

/-- The fault does not say that the operand stack is full. -/
def NotFull (g : Fault) : Prop := ∀ limit, g.cause ≠ .stackOverflow limit

/-- Taking a value makes room for one, or fails for want of a value. -/
theorem popOperand_room (h : m.operands.items.size ≤ m.operands.limit) :
    (popOperand site).Ensures m
      (fun _ m' => m'.operands.items.size < m'.operands.limit)
      (fun g _ => NotFull g) := by
  refine popOperand_ensures ?_ ?_
  · intro v htop
    obtain ⟨xs, hxs⟩ := Array.back?_eq_some_iff.mp htop
    show m.operands.items.pop.size < m.operands.limit
    rw [hxs, Array.size_push] at h
    rw [hxs, Array.pop_push]
    omega
  · intro _ limit hfull
    cases hfull

/-- Two values make room for the one that is computed from them. -/
theorem binary_room {α : Type} {result : Value → Value → Except ValueError α}
    {wrap : α → Value} (h : m.operands.items.size ≤ m.operands.limit) :
    (do
      let b ← popOperand site
      let a ← popOperand site
      let x ← compute site (result a b)
      pushOperand site (wrap x)
      return Transfer.next).Ensures m (fun t _ => t = Transfer.next)
        (fun g _ => NotFull g) := by
  refine Ensures.bind _ (popOperand_room h) fun b m₁ h₁ => ?_
  refine Ensures.bind _ (popOperand_room (Nat.le_of_lt h₁)) fun a m₂ h₂ => ?_
  refine Ensures.bind (fun _ m' => m' = m₂) (compute_ensures (fun _ => rfl) ?_)
    fun x m₃ h₃ => ?_
  · intro e limit hfull
    cases hfull
  · subst h₃
    refine Ensures.bind (fun _ _ => True) (pushOperand_ensures _ trivial ?_)
      fun _ _ _ => rfl
    intro hfull
    exact absurd h₂ hfull

/-- By then the instruction has taken two values for the one it puts back, so
the stack is not full. -/
theorem execute_room {reenter : Reentry} (hop : i.opcode.isBinary)
    (h : m.operands.items.size ≤ m.operands.limit) :
    (execute reenter site i).Ensures m (fun t _ => t = .next)
      (fun g _ => NotFull g) := by
  unfold execute
  cases hi : i.opcode with
  | add | sub | mul | div => exact binary_room h
  | cmpLt => exact binary_room h
  | _ =>
      rw [hi] at hop
      cases hop

/-- Arithmetic never finds the operand stack full. -/
theorem step_room {reenter : Reentry} (hop : i.opcode.isBinary)
    (htop : m.calls.top? = some f) (hi : m.program.code[f.ip]? = some i)
    (h : m.operands.items.size ≤ m.operands.limit) :
    (step reenter).Ensures m (fun _ _ => True) (fun g _ => NotFull g) := by
  obtain ⟨rest, hitems⟩ := Array.back?_eq_some_iff.mp htop
  have hiterate : (iterate reenter).Ensures { m with status := .running }
      (fun _ _ => True)
      (fun g _ => NotFull g) := by
    refine .standing hitems hi trivial ?_
    refine Ensures.bind (fun t _ => t = .next) (execute_room hop h)
      fun t m₁ ht => ?_
    subst ht
    refine Ensures.bind (fun _ _ => True) ?_ fun _ _ _ => trivial
    refine (carryOut_next_ensures f.ip _).mono (fun _ _ _ => trivial) ?_
    intro g m' hg limit hfull
    rw [hg.2] at hfull
    cases hfull
  exact hiterate.step (fun _ h => h) (fun _ _ h => h) fun _ _ h => h

end Action

-- ============================================================== sessions

namespace Moment

variable {p : Program} {limits : Limits} {now later last : Moment}
  {k function slots : Nat}

/-- The session leads from one moment to another and has more than `k` frames
all the while. -/
def LeadsAbove (k : Nat) : Moment → Moment → Prop :=
  Relation.ReflTransGen fun a b => a.next? = some b ∧ k < b.machine.calls.size

/-- A machine of this program whose stacks keep to their limits. -/
structure Sound (p : Program) (limits : Limits) (now : Moment) : Prop where
  program : now.machine.program = p
  bounded : now.machine.Bounded limits

/-- Nothing that is done from one moment to the next changes the program or
goes past a limit. -/
theorem Sound.next (h : now.Sound p limits) (hnext : now.next? = some later) :
    later.Sound p limits := by
  have heffect := next_effect hnext
  exact ⟨heffect.turn.1.trans h.program, heffect.bounded h.bounded⟩

/-- By induction on the moments in between, the same holds of all that a
session leads to. -/
theorem Sound.leads (h : now.Sound p limits) (hleads : now.Leads later) :
    later.Sound p limits := by
  induction hleads with
  | refl => exact h
  | tail _ hnext ih => exact ih.next hnext

/-- A frame keeps its function and the number of its slots from one
moment to the next. -/
theorem frameAt_next (hnext : now.next? = some later)
    (hk : k < later.machine.calls.size)
    (h : FrameAt now.machine.calls.items k function slots) :
    FrameAt later.machine.calls.items k function slots := by
  obtain ⟨-, hturn | ⟨f, next, -, hpushed⟩⟩ := (next_effect hnext).turn
  · exact hturn.frameAt hk h
  · rw [hpushed]
    exact frameAt_push.mpr (.inl h)

/-- As long as there are more frames than `k`, the one at place `k` keeps its
function and its slots. -/
theorem frameAt_leadsAbove (hleads : now.LeadsAbove k later)
    (h : FrameAt now.machine.calls.items k function slots) :
    FrameAt later.machine.calls.items k function slots := by
  induction hleads with
  | refl => exact h
  | tail _ hnext ih => exact frameAt_next hnext.1 hnext.2 ih

/-- Whoever puts a frame on the call stack, other than the host, puts one of a
function of the table there, with the slots that it asks for. -/
theorem Sound.frameAt_new (h : now.Sound p limits)
    (hnext : now.next? = some later)
    (hgrown : now.machine.calls.size < later.machine.calls.size)
    (hhost : ∀ f next, now.doing ≠ .performing (.pushFrame f next)) :
    ∃ n g, p.functions[n]? = some g
      ∧ FrameAt later.machine.calls.items now.machine.calls.size
        n g.slots := by
  obtain ⟨-, hturn | ⟨f, next, hdoing, -⟩⟩ := (next_effect hnext).turn
  · rw [h.program] at hturn
    exact hturn.frameAt_new hgrown
  · exact absurd hdoing (hhost f next)

/-- A fault that the session stops with is that of the action before it. -/
theorem fault_of_after {a : Action Progress} {m : Machine}
    {waiting : List Waiting} {g : Fault}
    (h : after a m .stopped waiting = some later)
    (hdoing : later.doing = .stopped (.error g)) :
    a m = .error (.fault g) later.machine := by
  unfold after at h
  cases hrun : a m with
  | ok x m' =>
      rw [hrun] at h
      cases h
      cases hdoing
  | error stop m' =>
      rw [hrun] at h
      cases stop with
      | fault g' =>
          cases h
          cases hdoing
          rfl
      | outOfFuel => cases h

/-- Arithmetic is no system call, and a step that takes it never finds the
operand stack full. -/
theorem Sound.step_room {f : Frame} {i : Instruction} {g : Fault}
    (h : now.Sound p limits) (hstep : now.doing = .going .step)
    (htop : now.machine.calls.top? = some f) (hi : p.code[f.ip]? = some i)
    (hop : i.opcode.isBinary) (hnext : now.next? = some later)
    (hfault : later.doing = .stopped (.error g)) : Action.NotFull g := by
  obtain ⟨doing, waiting, m⟩ := now
  obtain rfl : doing = .going .step := hstep
  obtain rfl : m.program = p := h.program
  have hroom : m.operands.items.size ≤ m.operands.limit :=
    Nat.le_trans h.bounded.operands (Nat.le_of_eq h.bounded.operandLimit.symm)
  have hgo : go .step waiting m = some later := hnext
  unfold go at hgo
  cases hhosted : m.hosted? with
  | none =>
      rw [hhosted] at hgo
      exact (Action.step_room hop htop hi hroom).of_fault
        (fault_of_after hgo hfault)
  -- a step that waits for a routine is a system call
  | some hosted =>
      obtain ⟨site, r, m'⟩ := hosted
      cases Machine.hosts_of_hosted hhosted with
      | intro _ htop' hi' hsyscall _ =>
          obtain rfl := Option.some.inj (htop.symm.trans htop')
          obtain rfl := Option.some.inj (hi.symm.trans hi')
          rw [hsyscall] at hop
          cases hop

end Moment

/-- Whatever a host does with a new machine, the session comes to what the
requests of the host come to, and at every moment of it both stacks keep to
their limits. A frame that is put on the call stack by anything but the host's
own push, which is to say by a call or by a start, belongs to a function of
the table, and it has as many slots as that function asks for until it is
gone. Arithmetic never faults for want of room on the operand stack. -/
theorem session_resources (p : Program) (limits : Limits) (observer : Observer)
    (host : Routine) :
    let first : Moment := ⟨.performing host, [], Machine.new p limits observer⟩
    (∀ fuel, first.Comes .returned []
      (Action.perform (Action.advance fuel) host
        (Machine.new p limits observer)))
    ∧ ∀ now, first.Leads now →
      (now.machine.operands.size ≤ limits.operands
        ∧ now.machine.calls.size ≤ limits.calls)
      ∧ (∀ later, now.next? = some later →
        now.machine.calls.size < later.machine.calls.size →
        (∀ f next, now.doing ≠ .performing (.pushFrame f next)) →
        ∃ n g, p.functions[n]? = some g
          ∧ ∀ last, later.LeadsAbove now.machine.calls.size last →
          FrameAt last.machine.calls.items now.machine.calls.size n g.slots)
      ∧ ∀ later f i g, now.next? = some later → now.doing = .going .step →
        now.machine.calls.top? = some f → p.code[f.ip]? = some i →
        i.opcode.isBinary →
        later.doing = .stopped (.error g) →
        ∀ limit, g.cause ≠ .stackOverflow limit := by
  intro first
  have hfirst : first.Sound p limits :=
    ⟨rfl, rfl, rfl, Nat.zero_le _, Nat.zero_le _⟩
  refine ⟨fun fuel => Moment.perform_comes fuel host _ [],
    fun now hleads => ?_⟩
  have hnow := hfirst.leads hleads
  refine ⟨⟨hnow.bounded.operands, hnow.bounded.calls⟩, ?_, ?_⟩
  · intro later hnext hgrown hhost
    obtain ⟨n, g, hg, hframe⟩ := hnow.frameAt_new hnext hgrown hhost
    exact ⟨n, g, hg,
      fun last habove => Moment.frameAt_leadsAbove habove hframe⟩
  · intro later f i g hnext hstep htop hi hop hfault
    exact hnow.step_room hstep htop hi hop hnext hfault

/-- Calls the host, and then adds two values. -/
def nesting : Program where
  constants := #[.int 1]
  code := #[{ opcode := .syscall, operand := 7 }, { opcode := .pushConst },
    { opcode := .pushConst }, { opcode := .add }, { opcode := .ret }]
  functions := #[⟨"main", 0, 0, 1⟩]
  entry := 0
  entry_lt := Nat.zero_lt_one

/-- Starts the machine, starts it again from inside the first system call, and
then pushes a frame that has fewer slots than its function asks for. -/
def nestingHost : Routine :=
  .register 7
    (fun
      | 0 =>
        .advance .start fun _ => .pushFrame ⟨0, 4, none, #[]⟩ fun _ => .done
      | _ => .done)
    (.advance .start fun _ => .done)

/-- The session comes to its end within limits of two values and two
frames. -/
theorem nesting_resources : ∃ m',
    Action.perform (Action.advance 9) nestingHost (Machine.new nesting ⟨2, 2⟩)
      = .ok () m'
      ∧ m'.operands.items = #[.int 2]
      ∧ Moment.Leads ⟨.performing nestingHost, [], Machine.new nesting ⟨2, 2⟩⟩
          ⟨.returned (.ok ()), [], m'⟩
      ∧ m'.operands.size ≤ 2 ∧ m'.calls.size ≤ 2 := by
  have hrun : ((Action.perform (Action.advance 9) nestingHost).answer?
      (Machine.new nesting ⟨2, 2⟩)).map (·.2.operands.items)
        = some #[.int 2] := by decide +kernel
  obtain ⟨⟨x, m'⟩, hanswer, hoperands⟩ := Option.map_eq_some_iff.mp hrun
  have hrun := Action.eq_ok_of_answer? hanswer
  obtain ⟨hcomes, hkept⟩ := session_resources nesting ⟨2, 2⟩ {} nestingHost
  have hcomes := hcomes 9
  rw [hrun] at hcomes
  cases hcomes with
  | answer h => exact ⟨m', hrun, hoperands, h, (hkept _ h).1⟩

end StackMachine
