/-
Machines that differ in nothing an instruction looks at. Two machines are
`Alike` if they differ at most in the halt flag, in what they last did and in
how their observers count and when those ask for halts; in particular, they
have dispatched the same instructions.

An action that is set going from machines that are alike comes to the same
answer or stops in the same way, and leaves machines that are alike
(`Agree`). No instruction and no confined host reads the flag, so this holds
of every part of an iteration but its end, where the flag decides whether the
machine goes on: `agree_iterate` is about what is left of the machines and
leaves the answer to `settles_iterate`.
-/
import StackMachine.Proofs.Machine.Move
import StackMachine.Proofs.Machine.Simulation

namespace StackMachine

-- ======================================================= alike machines

/-- Whether an event is the dispatch of an instruction. -/
def Event.isInstruction : Event → Bool
  | .instruction .. => true
  | _ => false

namespace Machine

/-- The instructions that were dispatched while events were kept, in order. -/
def dispatched (m : Machine) : List Event :=
  m.events.filter Event.isInstruction

/-- The two machines differ in no more than the halt flag, the status and the
halts that their observers ask for. -/
structure Alike (m₁ m₂ : Machine) : Prop where
  program : m₁.program = m₂.program
  operands : m₁.operands = m₂.operands
  calls : m₁.calls = m₂.calls
  handlers : m₁.handlers = m₂.handlers
  output : m₁.output = m₂.output
  keeps : m₁.observer.keeps = m₂.observer.keeps
  dispatched : m₁.dispatched = m₂.dispatched

variable {m₁ m₂ m₃ : Machine}

theorem Alike.refl (m : Machine) : m.Alike m :=
  ⟨rfl, rfl, rfl, rfl, rfl, rfl, rfl⟩

theorem Alike.symm (h : m₁.Alike m₂) : m₂.Alike m₁ :=
  ⟨h.program.symm, h.operands.symm, h.calls.symm, h.handlers.symm,
    h.output.symm, h.keeps.symm, h.dispatched.symm⟩

theorem Alike.trans (h : m₁.Alike m₂) (h' : m₂.Alike m₃) : m₁.Alike m₃ :=
  ⟨h.program.trans h'.program, h.operands.trans h'.operands,
    h.calls.trans h'.calls, h.handlers.trans h'.handlers,
    h.output.trans h'.output, h.keeps.trans h'.keeps,
    h.dispatched.trans h'.dispatched⟩

theorem requestHalt_alike (m : Machine) : m.requestHalt.Alike m :=
  ⟨rfl, rfl, rfl, rfl, rfl, rfl, rfl⟩

theorem clearHalt_alike (m : Machine) : m.clearHalt.Alike m :=
  ⟨rfl, rfl, rfl, rfl, rfl, rfl, rfl⟩

/-- Machines that are alike find the same handlers. -/
theorem Alike.handler? (h : m₁.Alike m₂) (id : Int32) :
    m₁.handler? id = m₂.handler? id := by
  unfold Machine.handler?
  rw [h.handlers]

theorem Alike.register (h : m₁.Alike m₂) (id : Int32) (handler : Handler) :
    (m₁.register id handler).Alike (m₂.register id handler) := by
  refine ⟨h.program, h.operands, h.calls, ?_, h.output, h.keeps, h.dispatched⟩
  unfold Machine.register
  rw [h.handlers]

/-- Of what is reported, only instructions are dispatches, and they are kept
if events are. -/
theorem dispatched_observe (m : Machine) (e : Event) :
    (m.observe e).dispatched
      = if m.observer.keeps && e.isInstruction then m.dispatched ++ [e]
        else m.dispatched := by
  cases hkeeps : m.observer.keeps <;> cases e
    <;> simp [dispatched, events, observe, hkeeps, Event.isInstruction]

/-- They are still alike when both have reported the same event. -/
theorem Alike.observe (h : m₁.Alike m₂) (e : Event) :
    (m₁.observe e).Alike (m₂.observe e) := by
  have hdispatched : (m₁.observe e).dispatched
      = (m₂.observe e).dispatched := by
    rw [dispatched_observe, dispatched_observe, h.keeps, h.dispatched]
  cases e
    <;> exact ⟨h.program, h.operands, h.calls, h.handlers, h.output,
      h.keeps, hdispatched⟩

end Machine

namespace Action

-- ======================================================== the judgement

variable {α β : Type} {m₁ m₂ : Machine} {same : α → α → Prop}

/-- The actions, each from its machine, both give answers that are the `same`,
or both stop in the same way, and they leave machines that are alike. -/
def Agree (same : α → α → Prop) (m₁ m₂ : Machine) (a₁ a₂ : Action α) : Prop :=
  match a₁ m₁, a₂ m₂ with
  | .ok x m₁', .ok y m₂' => same x y ∧ m₁'.Alike m₂'
  | .error s m₁', .error t m₂' => s = t ∧ m₁'.Alike m₂'
  | _, _ => False

/-- Where nothing is excused, to be in step is to come to the same end: the
same answer, or the same stop. -/
theorem Agree.outcomes {a₁ a₂ : Action α} (h : Agree same m₁ m₂ a₁ a₂) :
    (∃ x y m₁' m₂', a₁ m₁ = .ok x m₁' ∧ a₂ m₂ = .ok y m₂' ∧ same x y
      ∧ m₁'.Alike m₂')
      ∨ ∃ stop m₁' m₂', a₁ m₁ = .error stop m₁' ∧ a₂ m₂ = .error stop m₂'
        ∧ m₁'.Alike m₂' := by
  unfold Agree at h
  split at h
  · next x m₁' y m₂' h₁ h₂ => exact .inl ⟨x, y, m₁', m₂', h₁, h₂, h⟩
  · next s m₁' t m₂' h₁ h₂ =>
      obtain ⟨rfl, hm⟩ := h
      exact .inr ⟨s, m₁', m₂', h₁, h₂, hm⟩
  · exact h.elim

/-- What agrees with an action from a machine like its own agrees with it in
the end. -/
theorem Agree.trans {m₃ : Machine} {a₁ a₂ a₃ : Action α}
    (h : Agree Eq m₁ m₂ a₁ a₂) (h' : Agree same m₂ m₃ a₂ a₃) :
    Agree same m₁ m₃ a₁ a₃ := by
  unfold Agree at h' ⊢
  rcases h.outcomes with ⟨x, _, m₁', m₂', h₁, h₂, rfl, hm⟩
    | ⟨stop, m₁', m₂', h₁, h₂, hm⟩
  · rw [h₂] at h'
    rw [h₁]
    cases h₃ : a₃ m₃ with
    | ok y m₃' =>
        rw [h₃] at h'
        exact ⟨h'.1, hm.trans h'.2⟩
    | error stop m₃' =>
        rw [h₃] at h'
        exact h'
  · rw [h₂] at h'
    rw [h₁]
    cases h₃ : a₃ m₃ with
    | ok y m₃' =>
        rw [h₃] at h'
        exact h'
    | error stop m₃' =>
        rw [h₃] at h'
        exact ⟨h'.1, hm.trans h'.2⟩

/-- To agree is to be in step as machines that are alike, with no excuse. -/
theorem agree_iff {a₁ a₂ : Action α} :
    Agree same m₁ m₂ a₁ a₂
      ↔ InStep Machine.Alike (fun _ => False) same m₁ m₂ a₁ a₂ := by
  unfold Agree InStep
  cases a₁ m₁ with
  | ok x m₁' => cases a₂ m₂ <;> simp
  | error s m₁' => cases a₂ m₂ <;> simp

/-- One action after another: the second pair starts from what the first pair
leaves. -/
theorem Agree.bind {a₁ a₂ : Action β} {next₁ next₂ : β → Action α}
    (h : Agree Eq m₁ m₂ a₁ a₂)
    (hnext : ∀ x m₁' m₂', a₁ m₁ = .ok x m₁' → m₁'.Alike m₂' →
      Agree same m₁' m₂' (next₁ x) (next₂ x)) :
    Agree same m₁ m₂ (a₁ >>= next₁) (a₂ >>= next₂) :=
  agree_iff.mpr (.bind (agree_iff.mp h) fun x m₁' m₂' hrun hm =>
    agree_iff.mp (hnext x m₁' m₂' hrun hm))

theorem Agree.get {next₁ next₂ : Machine → Action α}
    (h : Agree same m₁ m₂ (next₁ m₁) (next₂ m₂)) :
    Agree same m₁ m₂ ((MonadState.get : Action Machine) >>= next₁)
      ((MonadState.get : Action Machine) >>= next₂) :=
  h

-- ========================================================= small actions

section Small

variable (h : m₁.Alike m₂) {site : Nat}

include h

theorem agree_fail (cause : Cause) :
    Agree same m₁ m₂ (fail site cause : Action α) (fail site cause) :=
  ⟨rfl, h⟩

/-- An operation on the operands finds the same ones on both sides. -/
theorem agree_onOperands (op : StackOp Value α) :
    Agree Eq m₁ m₂ (onOperands site op) (onOperands site op) := by
  unfold Agree onOperands
  rw [h.operands]
  cases op m₂.operands with
  | ok x operands =>
      exact ⟨rfl, h.program, rfl, h.calls, h.handlers, h.output,
        h.keeps, h.dispatched⟩
  | error e operands =>
      exact ⟨rfl, h.program, rfl, h.calls, h.handlers, h.output,
        h.keeps, h.dispatched⟩

/-- An operation on the frames finds the same ones on both sides. -/
theorem agree_onCalls (op : StackOp Frame α) :
    Agree Eq m₁ m₂ (onCalls site op) (onCalls site op) := by
  unfold Agree onCalls
  rw [h.calls]
  cases op m₂.calls with
  | ok x calls =>
      exact ⟨rfl, h.program, h.operands, rfl, h.handlers, h.output,
        h.keeps, h.dispatched⟩
  | error e calls =>
      exact ⟨rfl, h.program, h.operands, rfl, h.handlers, h.output,
        h.keeps, h.dispatched⟩

end Small

/-- Machines that are alike are kept so by every operation of an instruction
and of a transfer. -/
theorem simulates_alike : Simulates Machine.Alike fun _ => False where
  program h := h.program
  frames h := congrArg Stack.items h.calls
  popOperand h _ := agree_iff.mp (agree_onOperands h _)
  popOperands h _ _ := agree_iff.mp (agree_onOperands h _)
  pushOperand h _ _ := agree_iff.mp (agree_onOperands h _)
  setFrame h _ f := by
    refine ⟨h.program, h.operands, ?_, h.handlers, h.output,
      h.keeps, h.dispatched⟩
    show Stack.replaceTop _ f = Stack.replaceTop _ f
    rw [h.calls]
  pushCall h _ _ := agree_iff.mp (agree_onCalls h _)
  popCall h _ := agree_iff.mp (agree_onCalls h _)
  observe h e := h.observe e
  requestHalt {m₁ m₂} h :=
    (m₁.requestHalt_alike.trans h).trans m₂.requestHalt_alike.symm

-- =============================================================== hosts

section Hosts

variable {raises : Fault → Prop} {reenter : Reentry} {site : Nat}

/-- What a confined routine does, it does to machines that are alike in the
same way. -/
theorem agree_perform (h : m₁.Alike m₂) {r : Routine}
    (hr : r.Confined raises) :
    Agree Eq m₁ m₂ (perform reenter r) (perform reenter r) :=
  agree_iff.mpr (simulates_alike.perform simulates_alike.requestHalt
    (fun {m₁ m₂} h =>
      (m₁.clearHalt_alike.trans h).trans m₂.clearHalt_alike.symm) hr h)

/-- Both sides print the same value. -/
theorem agree_print (h : m₁.Alike m₂) (id : Int32) (device : Option Device) :
    Agree Eq m₁ m₂ (print id device) (print id device) := by
  refine agree_iff.mpr (simulates_alike.print (fun {m₁ m₂} h more => ?_)
    (fun h id device => h.register id (.print device)) h id device)
  refine ⟨h.program, h.operands, h.calls, h.handlers, ?_,
    h.keeps, h.dispatched⟩
  show m₁.output ++ more = m₂.output ++ more
  rw [h.output]

/-- Both sides find the same handler and run it alike. -/
theorem agree_syscall (h : m₁.Alike m₂) (hc : m₁.Confined raises)
    (id : Int32) :
    Agree Eq m₁ m₂ (syscall reenter site id) (syscall reenter site id) := by
  refine .get ?_
  rw [← h.handler? id]
  cases hfound : m₁.handler? id with
  | none => exact agree_fail h _
  | some handler =>
      have hobserved := h.observe (.syscall site id)
      cases handler with
      | print device => exact agree_print hobserved id device
      | routine calls count =>
          have hcalls : ∀ k, (calls k).Confined raises := hc.handler hfound
          exact agree_perform (hobserved.register id _) (hcalls count)

end Hosts

-- ========================================================== iterations

variable {raises : Fault → Prop} {reenter : Reentry} {site : Nat}

/-- Both sides execute an instruction alike, system calls included. -/
theorem agree_execute (h : m₁.Alike m₂) (hc : m₁.Confined raises)
    (i : Instruction) :
    Agree Eq m₁ m₂ (execute reenter site i) (execute reenter site i) :=
  agree_iff.mpr
    (simulates_alike.execute h site i
      fun _ => agree_iff.mp (agree_syscall h hc _))

theorem agree_carryOut (h : m₁.Alike m₂) (depth : Nat) (t : Transfer) :
    Agree Eq m₁ m₂ (carryOut site depth t) (carryOut site depth t) :=
  agree_iff.mpr (simulates_alike.carryOut h site depth t)

/-- Answers may differ here: one side may have been asked to halt. -/
theorem agree_settle (h : m₁.Alike m₂) :
    Agree (fun _ _ => True) m₁ m₂ settle settle :=
  ⟨trivial, h⟩

/-- From machines that are alike and not to halt, an iteration leaves machines
that are alike. Its answers may differ, since it may have been asked to halt
on one side. -/
theorem agree_iterate (h : m₁.Alike m₂) (hc : m₁.Confined raises)
    (h₁ : m₁.haltRequested = false) (h₂ : m₂.haltRequested = false) :
    Agree (fun _ _ => True) m₁ m₂ (iterate reenter) (iterate reenter) := by
  refine .get ?_
  simp only [h₁, h₂, Bool.false_eq_true, if_false]
  rw [h.calls, h.program, h.operands]
  cases m₂.calls.top? with
  | none => exact ⟨trivial, h⟩
  | some f =>
      by_cases hend : f.ip = m₂.program.length
      · simp only [hend, if_true]
        exact .bind (agree_carryOut h _ _) fun _ _ _ _ h => agree_settle h
      · simp only [hend, if_false]
        cases m₂.program.code[f.ip]? with
        | none => exact agree_fail h _
        | some i =>
            have hobserved := h.observe (.instruction f.ip i m₂.operands.size)
            -- an event does not change which hosts there are
            have hc' :=
              (m₁.beside_observe
                (.instruction f.ip i m₂.operands.size)).confined _ hc
            have hdispatch : Agree (fun _ _ => True) _ _
                (dispatch reenter f.ip m₂.calls.size i)
                (dispatch reenter f.ip m₂.calls.size i) :=
              .bind (agree_execute hobserved hc' i) fun t _ _ _ h =>
                .bind (agree_carryOut h _ t) fun _ _ _ _ h => agree_settle h
            exact hdispatch

end Action

-- ============================================================= answers

/-- Whether the machine goes on, once an iteration is over. -/
def Machine.settled (m : Machine) : Progress :=
  if m.haltRequested then .halted .haltRequested
  else if m.calls.isEmpty then .halted .completed
  else .running

namespace Action

/-- An answer of the action says whether the machine that it leaves goes
on. -/
def Settles (a : Action Progress) : Prop :=
  ∀ m progress m', a m = .ok progress m' → progress = m'.settled

/-- The question whether to go on is answered from the machine as it is. -/
theorem settles_settle : Settles settle := by
  intro m progress m' h
  injection h with hprogress hm
  rw [← hprogress, ← hm]
  rfl

/-- An action that ends in such an answer has it, whatever comes first. -/
theorem Settles.bind {α : Type} {a : Action α} {next : α → Action Progress}
    (h : ∀ x, Settles (next x)) : Settles (a >>= next) := by
  intro m progress m' hrun
  simp only [Bind.bind, EStateM.bind] at hrun
  cases ha : a m with
  | ok x m₁ =>
      rw [ha] at hrun
      exact h x m₁ progress m' hrun
  | error stop m₁ =>
      rw [ha] at hrun
      cases hrun

/-- Every instruction ends in such an answer. -/
theorem settles_dispatch (reenter : Reentry) (site depth : Nat)
    (i : Instruction) :
    Settles (dispatch reenter site depth i) :=
  .bind fun _ => .bind fun _ => settles_settle

/-- So does every iteration, whatever it dispatches. -/
theorem settles_iterate {reenter : Reentry} : Settles (iterate reenter) := by
  intro m progress m' hrun
  have hcases := iterate_iteration reenter m
  rw [hrun] at hcases
  unfold Machine.settled
  generalize houtcome : EStateM.Result.ok progress m' = outcome at hcases
  cases hcases with
  | halting hhalt =>
      cases houtcome
      rw [if_pos hhalt]
  | finished hhalt hempty =>
      cases houtcome
      rw [if_neg hhalt, Stack.isEmpty, hempty]
      rfl
  | ranOff => exact Settles.bind (fun _ => settles_settle) _ _ _ houtcome.symm
  | astray => cases houtcome
  | fetched => exact settles_dispatch _ _ _ _ _ _ _ houtcome.symm

end Action

end StackMachine
