/-
Two machines in step. One action is set going from two machines that are
related in some way; it keeps them in step if it comes to the same answer or
to the same stop and leaves machines that are related again. The first machine
may be excused: when it stops for a reason that is none of the other's, the two
need not agree any further.

What an instruction does to a machine comes down to a few small actions on its
two stacks. A relation that these keep is kept by every instruction
(`Respects`), by every transfer if it is also kept by pushing and popping
frames and by reports (`Simulates`), and by whole steps if it leaves no doubt
about the halt flag (`Lockstep`). System calls are the one thing left open,
since what a host may do differs from one relation to the next.

An invariant is a relation like any other: it relates a machine that satisfies
it to itself (`Always`).
-/
import StackMachine.Proofs.Machine.Hosts

namespace StackMachine.Action

variable {α β : Type} {R : Machine → Machine → Prop} {excused : Stop → Prop}
  {same : α → α → Prop} {m₁ m₂ : Machine}

-- ======================================================== the judgement

/-- The actions, each from its machine, both give answers that are the `same`,
or both stop in the same way, and they leave related machines; or the first
stops for a reason that excuses it. -/
def InStep (R : Machine → Machine → Prop) (excused : Stop → Prop)
    (same : α → α → Prop) (m₁ m₂ : Machine) (a₁ a₂ : Action α) : Prop :=
  match a₁ m₁, a₂ m₂ with
  | .ok x m₁', .ok y m₂' => same x y ∧ R m₁' m₂'
  | .error s m₁', .error t m₂' => excused s ∨ s = t ∧ R m₁' m₂'
  | .error s _, .ok _ _ => excused s
  | .ok _ _, .error _ _ => False

/-- Where the first action gives an answer, so does the second. -/
theorem InStep.of_ok {a₁ a₂ : Action α} {x : α} {m₁' : Machine}
    (h : InStep R excused same m₁ m₂ a₁ a₂) (hrun : a₁ m₁ = .ok x m₁') :
    ∃ y m₂', a₂ m₂ = .ok y m₂' ∧ same x y ∧ R m₁' m₂' := by
  unfold InStep at h
  rw [hrun] at h
  cases hrun₂ : a₂ m₂ with
  | ok y m₂' =>
      rw [hrun₂] at h
      exact ⟨y, m₂', rfl, h⟩
  | error t m₂' =>
      rw [hrun₂] at h
      exact h.elim

/-- Where the first action stops without an excuse, the second stops as
well. -/
theorem InStep.of_error {a₁ a₂ : Action α} {stop : Stop} {m₁' : Machine}
    (h : InStep R excused same m₁ m₂ a₁ a₂) (hrun : a₁ m₁ = .error stop m₁')
    (hstop : ¬ excused stop) : ∃ m₂', a₂ m₂ = .error stop m₂' ∧ R m₁' m₂' := by
  unfold InStep at h
  rw [hrun] at h
  cases hrun₂ : a₂ m₂ with
  | ok y m₂' =>
      rw [hrun₂] at h
      exact absurd h hstop
  | error t m₂' =>
      rw [hrun₂] at h
      rcases h with hexcused | ⟨rfl, hr⟩
      · exact absurd hexcused hstop
      · exact ⟨m₂', rfl, hr⟩

/-- An excuse of the first action leaves the second free. -/
theorem InStep.of_excused {a₁ a₂ : Action α} {stop : Stop} {m₁' : Machine}
    (hrun : a₁ m₁ = .error stop m₁') (hstop : excused stop) :
    InStep R excused same m₁ m₂ a₁ a₂ := by
  unfold InStep
  rw [hrun]
  cases a₂ m₂ with
  | ok y m₂' => exact hstop
  | error t m₂' => exact .inl hstop

/-- Actions that come to the same from other machines may be compared
there. -/
theorem InStep.of_eq {a₁ a₂ b₁ b₂ : Action α} {n₁ n₂ : Machine}
    (h₁ : a₁ m₁ = b₁ n₁) (h₂ : a₂ m₂ = b₂ n₂)
    (h : InStep R excused same n₁ n₂ b₁ b₂) :
    InStep R excused same m₁ m₂ a₁ a₂ := by
  unfold InStep at h ⊢
  rw [h₁, h₂]
  exact h

/-- Actions that need no excuse have one less to give. -/
theorem InStep.excuse {a₁ a₂ : Action α}
    (h : InStep R (fun _ => False) same m₁ m₂ a₁ a₂) :
    InStep R excused same m₁ m₂ a₁ a₂ := by
  unfold InStep at h ⊢
  cases hrun₁ : a₁ m₁ with
  | ok x m₁' =>
      rw [hrun₁] at h
      cases hrun₂ : a₂ m₂ with
      | ok y m₂' =>
          rw [hrun₂] at h
          exact h
      | error t m₂' =>
          rw [hrun₂] at h
          exact h
  | error s m₁' =>
      rw [hrun₁] at h
      cases hrun₂ : a₂ m₂ with
      | ok y m₂' =>
          rw [hrun₂] at h
          exact h.elim
      | error t m₂' =>
          rw [hrun₂] at h
          exact .inr (h.resolve_left id)

/-- One action after another: the second pair starts from what the first pair
leaves. -/
theorem InStep.bind {a₁ a₂ : Action β} {next₁ next₂ : β → Action α}
    (h : InStep R excused Eq m₁ m₂ a₁ a₂)
    (hnext : ∀ x m₁' m₂', a₁ m₁ = .ok x m₁' → R m₁' m₂' →
      InStep R excused same m₁' m₂' (next₁ x) (next₂ x)) :
    InStep R excused same m₁ m₂ (a₁ >>= next₁) (a₂ >>= next₂) := by
  cases hrun₁ : a₁ m₁ with
  | ok x m₁' =>
      obtain ⟨_, m₂', hrun₂, rfl, hr⟩ := h.of_ok hrun₁
      refine .of_eq ?_ ?_ (hnext x m₁' m₂' hrun₁ hr)
      · simp only [Bind.bind, EStateM.bind, hrun₁]
      · simp only [Bind.bind, EStateM.bind, hrun₂]
  | error s m₁' =>
      have hbind : (a₁ >>= next₁) m₁ = .error s m₁' := by
        simp only [Bind.bind, EStateM.bind, hrun₁]
      by_cases hs : excused s
      · exact .of_excused hbind hs
      · obtain ⟨m₂', hrun₂, hr⟩ := h.of_error hrun₁ hs
        unfold InStep
        simp only [Bind.bind, EStateM.bind, hrun₁, hrun₂]
        exact .inr ⟨trivial, hr⟩

theorem InStep.get {next₁ next₂ : Machine → Action α}
    (h : InStep R excused same m₁ m₂ (next₁ m₁) (next₂ m₂)) :
    InStep R excused same m₁ m₂ ((MonadState.get : Action Machine) >>= next₁)
      ((MonadState.get : Action Machine) >>= next₂) :=
  h

/-- Where no stop is excused, a fault that is caught is the same answer on
both sides. -/
theorem InStep.attempt {a₁ a₂ : Action α}
    (h : InStep R (fun _ => False) Eq m₁ m₂ a₁ a₂) :
    InStep R excused Eq m₁ m₂ (Action.attempt a₁) (Action.attempt a₂) := by
  unfold InStep Action.attempt
  cases hrun₁ : a₁ m₁ with
  | ok x m₁' =>
      obtain ⟨_, m₂', hrun₂, rfl, hr⟩ := h.of_ok hrun₁
      rw [hrun₂]
      exact ⟨rfl, hr⟩
  | error stop m₁' =>
      obtain ⟨m₂', hrun₂, hr⟩ := h.of_error hrun₁ id
      rw [hrun₂]
      cases stop with
      | fault f => exact ⟨rfl, hr⟩
      | outOfFuel => exact .inr ⟨rfl, hr⟩

/-- An invariant, as the relation of every machine that satisfies it to
itself. -/
def Always (inv : Machine → Prop) (m₁ m₂ : Machine) : Prop := m₁ = m₂ ∧ inv m₁

/-- A property of one machine is a relation of it to itself. -/
theorem InStep.of_leaves {inv : Machine → Prop} {m : Machine} {a : Action α}
    (h : inv (a.leaves m)) : InStep (Always inv) excused Eq m m a a := by
  unfold Action.leaves at h
  unfold InStep
  cases hrun : a m with
  | ok x m' =>
      rw [hrun] at h
      exact ⟨rfl, rfl, h⟩
  | error stop m' =>
      rw [hrun] at h
      exact .inr ⟨rfl, rfl, h⟩

/-- What every action keeps, it keeps in step with itself. -/
theorem Always.inStep {inv : Machine → Prop} {a : Action α}
    (ha : ∀ m, inv m → inv (a.leaves m)) (h : Always inv m₁ m₂) :
    InStep (Always inv) excused Eq m₁ m₂ a a := by
  obtain ⟨rfl, hm⟩ := h
  exact .of_leaves (ha m₁ hm)

/-- What an action keeps in step with itself, it keeps. -/
theorem InStep.leaves {inv : Machine → Prop} {m : Machine} {a : Action α}
    (h : InStep (Always inv) (fun _ => False) Eq m m a a) :
    inv (a.leaves m) := by
  unfold Action.leaves
  cases hrun : a m with
  | ok x m' =>
      obtain ⟨_, m₂, -, -, hr⟩ := h.of_ok hrun
      exact hr.2
  | error stop m' =>
      obtain ⟨m₂, -, hr⟩ := h.of_error hrun id
      exact hr.2

section Small

variable (hr : R m₁ m₂) (site : Nat)

include hr

/-- An answer that is given at once is the same on both sides. -/
theorem inStep_pure (x : α) : InStep R excused Eq m₁ m₂ (pure x) (pure x) :=
  ⟨rfl, hr⟩

/-- So is a fault. -/
theorem inStep_fail (cause : Cause) :
    InStep R excused same m₁ m₂ (fail site cause : Action α)
      (fail site cause) :=
  .inr ⟨rfl, hr⟩

/-- So is what is computed from values alone. -/
theorem inStep_compute (result : Except ValueError α) :
    InStep R excused Eq m₁ m₂ (compute site result) (compute site result) := by
  cases result with
  | ok x => exact ⟨rfl, hr⟩
  | error e => exact .inr ⟨rfl, hr⟩

theorem inStep_onFrame (result : Except StackError α) :
    InStep R excused Eq m₁ m₂ (onFrame site result) (onFrame site result) := by
  cases result with
  | ok x => exact ⟨rfl, hr⟩
  | error e => exact .inr ⟨rfl, hr⟩

end Small

/-- What is computed from a frame leaves the machine as it was. -/
theorem onFrame_eq_ok {m m' : Machine} {site : Nat}
    {result : Except StackError α} {x : α}
    (h : onFrame site result m = .ok x m') : m' = m := by
  unfold onFrame at h
  cases result with
  | ok y =>
      injection h with _ hm
      exact hm.symm
  | error e => cases h

-- ======================================================== instructions

/-- What the instructions need of a relation to be kept in step. -/
structure Respects (R : Machine → Machine → Prop)
    (excused : Stop → Prop) : Prop where
  program : ∀ {m₁ m₂}, R m₁ m₂ → m₁.program = m₂.program
  frames : ∀ {m₁ m₂}, R m₁ m₂ → m₁.calls.items = m₂.calls.items
  popOperand : ∀ {m₁ m₂}, R m₁ m₂ → ∀ site,
    InStep R (fun _ => False) Eq m₁ m₂ (Action.popOperand site)
      (Action.popOperand site)
  popOperands : ∀ {m₁ m₂}, R m₁ m₂ → ∀ site n,
    InStep R excused Eq m₁ m₂ (Action.popOperands site n)
      (Action.popOperands site n)
  pushOperand : ∀ {m₁ m₂}, R m₁ m₂ → ∀ site v,
    InStep R excused Eq m₁ m₂ (Action.pushOperand site v)
      (Action.pushOperand site v)
  /-- A frame is only ever put in the place of another. -/
  setFrame : ∀ {m₁ m₂}, R m₁ m₂ → m₁.calls.items ≠ #[] → ∀ f,
    R { m₁ with calls := m₁.calls.replaceTop f }
      { m₂ with calls := m₂.calls.replaceTop f }

namespace Respects

variable (h : Respects R excused) (hr : R m₁ m₂) (site : Nat) (i : Instruction)

include h hr

/-- Whatever looks at the running frame finds the same one on both
sides, or none. -/
theorem withFrame {next₁ next₂ : Frame → Action α}
    (hnext : ∀ f, m₁.calls.items ≠ #[] →
      InStep R excused same m₁ m₂ (next₁ f) (next₂ f)) :
    InStep R excused same m₁ m₂ (Action.currentFrame site >>= next₁)
      (Action.currentFrame site >>= next₂) := by
  have hframes := h.frames hr
  cases hback : m₁.calls.items.back? with
  | none =>
      have hback₂ : m₂.calls.items.back? = none := by
        rw [← hframes]
        exact hback
      unfold InStep Action.currentFrame onCalls CallStack.current Stack.top
      simp only [Bind.bind, EStateM.bind, hback, hback₂]
      exact .inr ⟨trivial, hr⟩
  | some f =>
      obtain ⟨rest, htop⟩ := Array.back?_eq_some_iff.mp hback
      have htop₂ : m₂.calls.items = rest.push f := by
        rw [← hframes]
        exact htop
      have hnonempty : m₁.calls.items ≠ #[] := by
        rw [htop]
        exact Array.push_ne_empty
      refine .of_eq ?_ ?_ (hnext f hnonempty)
      · simp only [Bind.bind, EStateM.bind, currentFrame_eq htop]
      · simp only [Bind.bind, EStateM.bind, currentFrame_eq htop₂]

/-- Both running frames move to the same place. -/
theorem moveTo (ip : Nat) :
    InStep R excused Eq m₁ m₂ (Action.moveTo site ip)
      (Action.moveTo site ip) :=
  h.withFrame hr site fun _ hnonempty => ⟨rfl, h.setFrame hr hnonempty _⟩

/-- Both machines have the same constants to push. -/
theorem pushConstant :
    InStep R excused Eq m₁ m₂ (Action.pushConstant site i)
      (Action.pushConstant site i) := by
  refine .get ?_
  rw [h.program hr]
  cases i.index?.bind (m₂.program.constants[·]?) with
  | none => exact inStep_fail hr site _
  | some v =>
      exact .bind (h.pushOperand hr site v) fun _ _ _ _ hr => inStep_pure hr _

/-- Two operands are taken, and what is computed from them is put in their
place. -/
theorem binary {result : Value → Value → Except ValueError α}
    {wrap : α → Value} :
    let a : Action Transfer := do
      let b ← Action.popOperand site
      let a ← Action.popOperand site
      let x ← compute site (result a b)
      Action.pushOperand site (wrap x)
      return Transfer.next
    InStep R excused Eq m₁ m₂ a a := by
  refine .bind (h.popOperand hr site).excuse fun b _ _ _ hr => ?_
  refine .bind (h.popOperand hr site).excuse fun a _ _ _ hr => ?_
  refine .bind (inStep_compute hr site _) fun x _ _ _ hr => ?_
  exact .bind (h.pushOperand hr site _) fun _ _ _ _ hr => inStep_pure hr _

/-- Both find the same slot or none. -/
theorem slot :
    InStep R excused Eq m₁ m₂ (Action.slot site i) (Action.slot site i) := by
  unfold Action.slot
  cases i.index? with
  | some n => exact inStep_pure hr n
  | none =>
      refine .get ?_
      have htop : m₁.calls.top? = m₂.calls.top? := by
        unfold Stack.top?
        rw [h.frames hr]
      rw [htop]
      exact inStep_fail hr site _

/-- Both load what the same slot holds. -/
theorem loadLocal :
    InStep R excused Eq m₁ m₂ (Action.loadLocal site i)
      (Action.loadLocal site i) := by
  refine .bind (h.slot hr site i) fun n _ _ _ hr => ?_
  refine h.withFrame hr site fun f _ => ?_
  refine .bind (inStep_onFrame hr site _) fun v _ _ _ hr => ?_
  exact .bind (h.pushOperand hr site v) fun _ _ _ _ hr => inStep_pure hr _

/-- Both store the same value in the same slot. -/
theorem storeLocal :
    InStep R excused Eq m₁ m₂ (Action.storeLocal site i)
      (Action.storeLocal site i) := by
  refine .bind (h.slot hr site i) fun n _ _ _ hr => ?_
  refine .bind (h.popOperand hr site).excuse fun v m₁ m₂ _ hr => ?_
  refine h.withFrame hr site fun f hnonempty => ?_
  refine .bind (inStep_onFrame hr site _) fun g m₁' m₂' hrun hr' => ?_
  obtain rfl := onFrame_eq_ok hrun
  exact .bind ⟨rfl, h.setFrame hr' hnonempty g⟩
    fun _ _ _ _ hr => inStep_pure hr _

/-- Both take the same condition off the stack, so both jump or neither
does. -/
theorem jumpIfFalse (target : Int32) :
    InStep R excused Eq m₁ m₂ (Action.jumpIfFalse site target)
      (Action.jumpIfFalse site target) := by
  refine .bind (h.popOperand hr site).excuse fun v _ _ _ hr => ?_
  split
  · exact inStep_pure hr _
  · exact inStep_pure hr _
  · exact inStep_fail hr site _

/-- Both take the arguments of the same function off and push its frame. -/
theorem call :
    InStep R excused Eq m₁ m₂ (Action.call site i) (Action.call site i) := by
  refine .get ?_
  rw [h.program hr]
  cases i.index?.bind
    fun n => m₂.program.functions[n]?.map fun f => (n, f) with
  | none => exact inStep_fail hr site _
  | some callee =>
      refine .bind (h.popOperands hr site _) fun args _ _ _ hr => ?_
      exact .bind (inStep_onFrame hr site _) fun _ _ _ _ hr => inStep_pure hr _

/-- Every instruction keeps in step what its stack operations keep in step, if
system calls do. -/
theorem execute {reenter : Reentry}
    (hsyscall : i.opcode = .syscall → InStep R excused Eq m₁ m₂
      (Action.syscall reenter site i.operand)
      (Action.syscall reenter site i.operand)) :
    InStep R excused Eq m₁ m₂ (Action.execute reenter site i)
      (Action.execute reenter site i) := by
  unfold Action.execute
  cases hop : i.opcode with
  | nop | jump | ret | halt => exact inStep_pure hr _
  | pushConst => exact h.pushConstant hr site i
  | add | sub | mul | div => exact h.binary hr site
  | cmpLt => exact h.binary hr site
  | loadLocal => exact h.loadLocal hr site i
  | storeLocal => exact h.storeLocal hr site i
  | jumpIfFalse => exact h.jumpIfFalse hr site _
  | call => exact h.call hr site i
  | syscall => exact .bind (hsyscall hop) fun _ _ _ _ hr => inStep_pure hr _
  | cmpEq | cmpNe | cmpLe | cmpGt | cmpGe | not | and | or =>
      exact inStep_fail hr site _

-- ================================================================= hosts

omit site i in
/-- Related machines stand at the same instruction. -/
theorem ip : m₁.ip = m₂.ip := by
  unfold Machine.ip Stack.top?
  rw [h.frames hr]

theorem hostPop :
    InStep R (fun _ => False) Eq m₁ m₂ Action.hostPop Action.hostPop := by
  refine .get ?_
  rw [h.ip hr]
  exact h.popOperand hr _

/-- A host that pushes a value is answered alike, excuses apart. -/
theorem hostPush (v : Value) :
    InStep R excused Eq m₁ m₂ (Action.hostPush v) (Action.hostPush v) := by
  refine .get ?_
  rw [h.ip hr]
  exact h.pushOperand hr _ v

end Respects

/-- A confined routine keeps in step what the operand stack and the halt flag
keep in step. -/
theorem Respects.perform (h : Respects R fun _ => False)
    (hrequest : ∀ {m₁ m₂}, R m₁ m₂ → R m₁.requestHalt m₂.requestHalt)
    (hclear : ∀ {m₁ m₂}, R m₁ m₂ → R m₁.clearHalt m₂.clearHalt)
    {raises : Fault → Prop} {reenter : Reentry} {r : Routine}
    (hconfined : r.Confined raises) (hr : R m₁ m₂) :
    InStep R (fun _ => False) Eq m₁ m₂ (Action.perform reenter r)
      (Action.perform reenter r) := by
  induction r generalizing m₁ m₂ with
  | done => exact inStep_pure hr ()
  | raise fault => exact .inr ⟨rfl, hr⟩
  | pop next ih =>
      refine .bind (h.hostPop hr).attempt fun answer m₁' m₂' hrun hr => ?_
      have hnext : (Action.attempt Action.hostPop).Ensures m₁
          (fun answer m' => m₁.Beside m' ∧ (next answer).Confined raises)
          fun _ _ => True := attempt_hostPop_ensures hconfined
      exact ih answer (hnext.of_ok hrun).2 hr
  | push v next ih =>
      refine .bind (h.hostPush hr v).attempt fun answer m₁' m₂' hrun hr => ?_
      have hnext : (Action.attempt (Action.hostPush v)).Ensures m₁
          (fun answer m' => m₁.Beside m' ∧ (next answer).Confined raises)
          fun _ _ => True := attempt_hostPush_ensures hconfined
      exact ih answer (hnext.of_ok hrun).2 hr
  | requestHalt next ih => exact ih hconfined (hrequest hr)
  | clearHalt next ih => exact ih hconfined (hclear hr)
  | position next ih =>
      refine .get ?_
      rw [← h.ip hr]
      exact ih m₁.ip (hconfined m₁.ip) hr
  | pushFrame frame next => exact hconfined.elim
  | advance how next => exact hconfined.elim
  | register id calls next => exact hconfined.elim
  | registerPrint id device next => exact hconfined.elim

section Printing

variable (h : Respects R excused)
  (houtput : ∀ {m₁ m₂}, R m₁ m₂ → ∀ more,
    R { m₁ with output := m₁.output ++ more }
      { m₂ with output := m₂.output ++ more })
  (hdevice : ∀ {m₁ m₂}, R m₁ m₂ → ∀ id device,
    R (m₁.register id (.print device)) (m₂.register id (.print device)))
  (hr : R m₁ m₂) (id : Int32) (device : Option Device)

include h houtput hdevice hr

/-- Both sides write the same bytes, or fill up devices with the same
room. -/
theorem Respects.write (bytes : ByteArray) :
    InStep R excused Eq m₁ m₂ (Action.write id device bytes)
      (Action.write id device bytes) := by
  unfold InStep Action.write
  cases device with
  | none => exact ⟨rfl, houtput hr bytes⟩
  | some d =>
      by_cases hroom : bytes.size ≤ d.room
      · simp only [hroom, if_true]
        exact ⟨trivial, hdevice (houtput hr bytes) id _⟩
      · simp only [hroom, if_false]
        -- what fits the device is written before the fault
        have hfilled := hdevice (houtput hr (bytes.extract 0 d.room)) id
          (some { d with room := 0 })
        refine .inr ⟨?_, hfilled⟩
        unfold Machine.hostFault
        rw [h.ip hfilled]

/-- Both sides take the same value off and write it. -/
theorem Respects.print :
    InStep R excused Eq m₁ m₂ (Action.print id device)
      (Action.print id device) :=
  .bind (h.hostPop hr).excuse fun _ _ _ _ hr =>
    h.write houtput hdevice hr id device _

end Printing

-- ============================================================ transfers

/-- What the transfers need of a relation besides. -/
structure Simulates (R : Machine → Machine → Prop)
    (excused : Stop → Prop) : Prop
    extends Respects R excused where
  pushCall : ∀ {m₁ m₂}, R m₁ m₂ → ∀ site f,
    InStep R excused Eq m₁ m₂ (Action.pushCall site f) (Action.pushCall site f)
  popCall : ∀ {m₁ m₂}, R m₁ m₂ → ∀ site,
    InStep R excused Eq m₁ m₂ (Action.popCall site) (Action.popCall site)
  observe : ∀ {m₁ m₂}, R m₁ m₂ → ∀ e, R (m₁.observe e) (m₂.observe e)
  requestHalt : ∀ {m₁ m₂}, R m₁ m₂ → R m₁.requestHalt m₂.requestHalt

/-- Every transfer of control is one of these operations or a few of them in
a row. -/
theorem Simulates.carryOut (h : Simulates R excused) (hr : R m₁ m₂)
    (site depth : Nat) (t : Transfer) :
    InStep R excused Eq m₁ m₂ (Action.carryOut site depth t)
      (Action.carryOut site depth t) := by
  have hsize : ∀ {m₁ m₂}, R m₁ m₂ → m₁.calls.size = m₂.calls.size := fun hr =>
    congrArg Array.size (h.frames hr)
  cases t with
  | next =>
      refine .get ?_
      rw [hsize hr]
      split
      · -- the frame moves on only if it is still the running one
        refine h.withFrame hr site fun f hnonempty => ?_
        split
        · exact ⟨rfl, h.setFrame hr hnonempty _⟩
        · exact inStep_pure hr ()
      · exact inStep_pure hr ()
  | jump target =>
      show InStep R excused Eq m₁ m₂ (if 0 ≤ target.toInt then _ else _)
        (if 0 ≤ target.toInt then _ else _)
      split
      · exact h.moveTo hr site _
      · refine .get ?_
        rw [h.program hr]
        exact inStep_fail hr site _
  | call callee =>
      refine .bind (h.moveTo hr site _) fun _ _ _ _ hr => ?_
      refine .bind (h.pushCall hr site callee) fun _ m₁' m₂' _ hr => ?_
      refine .get ?_
      rw [h.program hr, hsize hr]
      cases m₂'.program.functions[callee.function]? with
      | none => exact inStep_pure hr ()
      | some g => exact ⟨rfl, h.observe hr _⟩
  | ret =>
      refine .bind (h.popCall hr site) fun _ m₁' m₂' _ hr => .get ?_
      rw [hsize hr]
      exact ⟨rfl, h.observe hr _⟩
  | halt =>
      refine .bind (h.moveTo hr site _) fun _ m₁' m₂' _ hr => ?_
      exact ⟨rfl, h.requestHalt hr⟩

-- ================================================================ steps

/-- What a whole step needs of a relation besides. -/
structure Lockstep (R : Machine → Machine → Prop)
    (excused : Stop → Prop) : Prop
    extends Simulates R excused where
  haltRequested : ∀ {m₁ m₂}, R m₁ m₂ → m₁.haltRequested = m₂.haltRequested
  operandCount : ∀ {m₁ m₂}, R m₁ m₂ → m₁.operands.size = m₂.operands.size
  setStatus : ∀ {m₁ m₂}, R m₁ m₂ → ∀ status,
    R { m₁ with status } { m₂ with status }

/-- The system call that the machines stand at, if they do, keeps them in
step. -/
def Served (R : Machine → Machine → Prop) (excused : Stop → Prop)
    (reenter : Reentry) (m₁ m₂ : Machine) : Prop :=
  ∀ f i, m₁.haltRequested = false → m₁.calls.top? = some f →
    m₁.program.code[f.ip]? = some i →
    i.opcode = .syscall →
    InStep R excused Eq (m₁.observe (.instruction f.ip i m₁.operands.size))
      (m₂.observe (.instruction f.ip i m₁.operands.size))
      (Action.syscall reenter f.ip i.operand)
      (Action.syscall reenter f.ip i.operand)

namespace Lockstep

variable (h : Lockstep R excused) (hr : R m₁ m₂) {reenter : Reentry}

include h hr

/-- Two machines in lockstep have both come to their end or both not. -/
theorem settle : InStep R excused Eq m₁ m₂ Action.settle Action.settle := by
  refine ⟨?_, hr⟩
  have hempty : m₁.calls.isEmpty = m₂.calls.isEmpty := by
    unfold Stack.isEmpty
    rw [h.frames hr]
  rw [h.haltRequested hr, hempty]

/-- An iteration keeps the machines in step if the system call does that they
may stand at. -/
theorem iterate (hserved : Served R excused reenter m₁ m₂) :
    InStep R excused Eq m₁ m₂ (Action.iterate reenter)
      (Action.iterate reenter) := by
  have htop : m₁.calls.top? = m₂.calls.top? := by
    unfold Stack.top?
    rw [h.frames hr]
  have hsize : m₁.calls.size = m₂.calls.size :=
    congrArg Array.size (h.frames hr)
  -- both machines take the same way through the checks
  refine .get ?_
  rw [← h.haltRequested hr, ← htop, ← h.program hr, ← hsize,
    ← h.operandCount hr]
  by_cases hhalt : m₁.haltRequested
  · rw [if_pos hhalt]
    exact inStep_pure hr _
  rw [if_neg hhalt]
  cases hf : m₁.calls.top? with
  | none => exact inStep_pure hr _
  | some f =>
      by_cases hend : f.ip = m₁.program.length
      · simp only [hend, if_true]
        exact .bind (h.carryOut hr _ _ .ret) fun _ _ _ _ hr => h.settle hr
      · simp only [hend, if_false]
        cases hi : m₁.program.code[f.ip]? with
        | none => exact inStep_fail hr _ _
        | some i =>
            have hobserved :=
              h.observe hr (.instruction f.ip i m₁.operands.size)
            have hdispatch : InStep R excused Eq _ _
                (dispatch reenter f.ip m₁.calls.size i)
                (dispatch reenter f.ip m₁.calls.size i) :=
              .bind (h.execute hobserved f.ip i
                (hserved f i (eq_false_of_ne_true hhalt) hf hi))
                fun t _ _ _ hr =>
                .bind (h.carryOut hr f.ip _ t) fun _ _ _ _ hr => h.settle hr
            exact hdispatch

omit hr in
/-- What is noted of an outcome is noted on both sides. -/
theorem noted {a : Action Progress} (ha : InStep R excused Eq m₁ m₂ a a) :
    InStep R excused Eq m₁ m₂ (Action.noted a) (Action.noted a) := by
  cases hrun : a m₁ with
  | ok progress m₁' =>
      obtain ⟨_, m₂', hrun₂, rfl, hr⟩ := ha.of_ok hrun
      unfold InStep Action.noted
      rw [hrun, hrun₂]
      cases progress with
      | running => exact ⟨rfl, hr⟩
      | halted reason => exact ⟨rfl, h.observe (h.setStatus hr .halted) _⟩
  | error stop m₁' =>
      have hnoted : ∃ m', Action.noted a m₁ = .error stop m' := by
        unfold Action.noted
        rw [hrun]
        cases stop with
        | fault g => exact ⟨_, rfl⟩
        | outOfFuel => exact ⟨_, rfl⟩
      by_cases hstop : excused stop
      · obtain ⟨_, hnoted⟩ := hnoted
        exact .of_excused hnoted hstop
      · obtain ⟨m₂', hrun₂, hr⟩ := ha.of_error hrun hstop
        unfold InStep Action.noted
        rw [hrun, hrun₂]
        cases stop with
        | fault g => exact .inr ⟨rfl, h.observe (h.setStatus hr .faulted) _⟩
        | outOfFuel => exact .inr ⟨rfl, hr⟩

/-- One iteration in step is one step in step, since both note how it
ended. -/
theorem step (hserved : Served R excused reenter { m₁ with status := .running }
      { m₂ with status := .running }) :
    InStep R excused Eq m₁ m₂ (Action.step reenter) (Action.step reenter) :=
  h.noted (h.iterate (h.setStatus hr .running) hserved)

end Lockstep

-- ================================================================= runs

/-- A run is a step and, if that has not ended it, the rest of the run. -/
theorem advance_run_bind (fuel : Nat) :
    advance (fuel + 1) .run = step (advance fuel) >>= fun progress =>
      match progress with
      | .running => advance fuel .run
      | .halted reason => pure (.halted reason) := by
  funext m
  rw [advance_run_succ]
  simp only [Bind.bind, EStateM.bind]
  cases step (advance fuel) m with
  | ok progress m' =>
      cases progress with
      | running => rfl
      | halted reason => rfl
  | error stop m' => rfl

/-- A start enters the program and then runs. -/
theorem advance_start_bind (fuel : Nat) :
    advance (fuel + 1) .start = enter >>= fun _ => advance fuel .run := by
  funext m
  rw [advance_start_succ]
  simp only [Bind.bind, EStateM.bind]
  cases enter m with
  | ok _ m' => rfl
  | error stop m' => rfl

/-- Machines that no system call brings out of step run in step, however long
they run. -/
theorem Lockstep.run (h : Lockstep R excused)
    (hsyscall : ∀ reenter {m₁ m₂}, R m₁ m₂ → ∀ site id,
      InStep R excused Eq m₁ m₂ (syscall reenter site id)
        (syscall reenter site id))
    (fuel : Nat) (hr : R m₁ m₂) :
    InStep R excused Eq m₁ m₂ (advance fuel .run) (advance fuel .run) := by
  induction fuel generalizing m₁ m₂ with
  | zero => exact .inr ⟨rfl, hr⟩
  | succ fuel ih =>
      rw [advance_run_bind]
      refine .bind (h.step hr fun f i _ _ _ _ => ?_)
        fun progress _ _ _ hr => ?_
      · exact hsyscall _ (h.observe (h.setStatus hr .running) _) _ _
      · cases progress with
        | running => exact ih hr
        | halted reason => exact inStep_pure hr _

end StackMachine.Action
