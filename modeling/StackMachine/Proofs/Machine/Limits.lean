/-
Limits cut runs short and do nothing else. A machine with larger limits takes
the same steps as one with smaller limits for as long as the smaller ones do
not stop the other: a limit is looked at where a stack grows and nowhere else,
and where it stops the growth, the run ends with a fault that names it.

Hosts are part of this. One that swallowed the fault of a refused push could
go on in a way that depends on the limit, so hosts are asked to hand it on
(`HandsOn`). Then a machine and the same machine with larger limits are in
lockstep, a fault of a limit being the one excuse for the smaller of the two
(`lockstep_within`).
-/
import StackMachine.Proofs.Machine.Placed
import StackMachine.Proofs.Machine.Simulation

namespace StackMachine

-- ================================================================= hosts

/-- A routine that uses the operand stack and the halt flag alone, and hands
on the fault of a push that was refused. -/
def Routine.HandsOn : Routine → Prop
  | .done => True
  | .raise _ => True
  | .pop next =>
    (∀ v, (next (.ok v)).HandsOn)
      ∧ ∀ site, (next (.error ⟨site, .stackUnderflow⟩)).HandsOn
  | .push _ next =>
    (next (.ok ())).HandsOn
      ∧ ∀ site limit,
        next (.error ⟨site, .stackOverflow limit⟩)
          = .raise ⟨site, .stackOverflow limit⟩
  | .requestHalt next => next.HandsOn
  | .clearHalt next => next.HandsOn
  | .position next => ∀ index, (next index).HandsOn
  | .pushFrame .. => False
  | .advance .. => False
  | .register .. => False
  | .registerPrint .. => False

/-- A handler all of whose calls hand on what they are refused; printing
pushes nothing. -/
def Handler.HandsOn : Handler → Prop
  | .print _ => True
  | .routine calls _ => ∀ k, (calls k).HandsOn

/-- A machine all of whose handlers hand on what they are refused. -/
def Machine.HandsOn (m : Machine) : Prop :=
  ∀ entry ∈ m.handlers, entry.2.HandsOn

/-- Causes that lie in a limit. -/
def Cause.isLimit : Cause → Bool
  | .stackOverflow _ | .callDepthExceeded _ => true
  | _ => false

namespace Machine

/-- Hosts still hand on what they are refused after another such host is
registered. -/
theorem HandsOn.register {m : Machine} (h : m.HandsOn) {id : Int32}
    {handler : Handler} (hh : handler.HandsOn) :
    (m.register id handler).HandsOn := by
  intro entry hmem
  rcases List.mem_cons.mp hmem with rfl | hmem
  · exact hh
  · exact h entry (List.mem_filter.mp hmem).1

/-- A handler that is found is one of them. -/
theorem HandsOn.handler {m : Machine} (h : m.HandsOn) {id : Int32}
    {handler : Handler} (hfound : m.handler? id = some handler) :
    handler.HandsOn := by
  obtain ⟨l₁, l₂, hsplit, -⟩ := List.lookup_eq_some_iff.mp hfound
  refine h (id, handler) ?_
  rw [hsplit]
  exact List.mem_append_right _ List.mem_cons_self

-- ================================================================ limits

/-- The machine with other limits, and all else as it is. -/
def within (m : Machine) (limits : Limits) : Machine :=
  { m with
    operands := { m.operands with limit := limits.operands }
    calls := { m.calls with limit := limits.calls } }

/-- The machine's limits are no larger than these, and its hosts hand on what
they are refused. -/
structure Inside (large : Limits) (m : Machine) : Prop where
  operands : m.operands.limit ≤ large.operands
  calls : m.calls.limit ≤ large.calls
  hosts : m.HandsOn

/-- The second machine is the first with these larger limits. -/
def Roomier (large : Limits) (m₁ m₂ : Machine) : Prop :=
  m₂ = m₁.within large ∧ m₁.Inside large

end Machine

/-- A fault of a limit excuses the machine with the smaller limits. -/
def Stop.isLimit (stop : Stop) : Prop := ∃ g, stop = .fault g ∧ g.cause.isLimit

namespace Action

variable {large : Limits} {m₁ m₂ : Machine} {site : Nat}

-- ========================================================= small actions

/-- Both machines find the same value or none. -/
theorem within_popOperand (h : m₁.Roomier large m₂) (site : Nat) :
    InStep (Machine.Roomier large) (fun _ => False) Eq m₁ m₂ (popOperand site)
      (popOperand site) := by
  obtain ⟨rfl, hm⟩ := h
  unfold InStep popOperand onOperands OperandStack.pop Stack.pop
  cases hback : m₁.operands.items.back? with
  | none =>
      simp only [Machine.within, hback]
      exact .inr ⟨trivial, rfl, hm⟩
  | some v =>
      simp only [Machine.within, hback]
      exact ⟨trivial, rfl, hm.operands, hm.calls, hm.hosts⟩

/-- Both find the same values or too few. -/
theorem within_popOperands (h : m₁.Roomier large m₂) (site n : Nat) :
    InStep (Machine.Roomier large) Stop.isLimit Eq m₁ m₂ (popOperands site n)
      (popOperands site n) := by
  obtain ⟨rfl, hm⟩ := h
  unfold InStep popOperands onOperands OperandStack.popMany Stack.popMany
  by_cases hn : n ≤ m₁.operands.items.size
  · simp only [Machine.within, hn, if_true]
    exact ⟨trivial, rfl, hm.operands, hm.calls, hm.hosts⟩
  · simp only [Machine.within, hn, if_false]
    exact .inr ⟨trivial, rfl, hm⟩

/-- A push that has room in the smaller machine has room in the larger one. -/
theorem within_pushOperand (h : m₁.Roomier large m₂) (site : Nat) (v : Value) :
    InStep (Machine.Roomier large) Stop.isLimit Eq m₁ m₂ (pushOperand site v)
      (pushOperand site v) := by
  obtain ⟨rfl, hm⟩ := h
  by_cases hroom : m₁.operands.items.size < m₁.operands.limit
  · have hroom' : m₁.operands.items.size < large.operands :=
      Nat.lt_of_lt_of_le hroom hm.operands
    unfold InStep pushOperand onOperands OperandStack.push Stack.push
    simp only [Machine.within, hroom, hroom', if_true]
    exact ⟨trivial, rfl, hm.operands, hm.calls, hm.hosts⟩
  · have hfull : pushOperand site v m₁
        = .error (.fault ⟨site, .stackOverflow m₁.operands.limit⟩) m₁ := by
      unfold pushOperand onOperands OperandStack.push Stack.push
      simp only [hroom, if_false]
      rfl
    exact .of_excused hfull ⟨_, rfl, rfl⟩

/-- So does a frame. -/
theorem within_pushCall (h : m₁.Roomier large m₂) (site : Nat) (f : Frame) :
    InStep (Machine.Roomier large) Stop.isLimit Eq m₁ m₂ (pushCall site f)
      (pushCall site f) := by
  obtain ⟨rfl, hm⟩ := h
  by_cases hroom : m₁.calls.items.size < m₁.calls.limit
  · have hroom' : m₁.calls.items.size < large.calls :=
      Nat.lt_of_lt_of_le hroom hm.calls
    unfold InStep pushCall onCalls CallStack.push Stack.push
    simp only [Machine.within, hroom, hroom', if_true]
    exact ⟨trivial, rfl, hm.operands, hm.calls, hm.hosts⟩
  · have hfull : pushCall site f m₁
        = .error (.fault ⟨site, .callDepthExceeded m₁.calls.limit⟩) m₁ := by
      unfold pushCall onCalls CallStack.push Stack.push
      simp only [hroom, if_false]
      rfl
    exact .of_excused hfull ⟨_, rfl, rfl⟩

/-- Both machines return from the same frame. -/
theorem within_popCall (h : m₁.Roomier large m₂) (site : Nat) :
    InStep (Machine.Roomier large) Stop.isLimit Eq m₁ m₂ (popCall site)
      (popCall site) := by
  obtain ⟨rfl, hm⟩ := h
  unfold InStep popCall onCalls CallStack.pop Stack.pop
  cases hback : m₁.calls.items.back? with
  | none =>
      simp only [Machine.within, hback]
      exact .inr ⟨trivial, rfl, hm⟩
  | some f =>
      simp only [Machine.within, hback]
      exact ⟨trivial, rfl, hm.operands, hm.calls, hm.hosts⟩

theorem within_observe (h : m₁.Roomier large m₂) (e : Event) :
    (m₁.observe e).Roomier large (m₂.observe e) := by
  obtain ⟨rfl, hm⟩ := h
  cases e <;> exact ⟨rfl, hm.operands, hm.calls, hm.hosts⟩

/-- A machine and the same machine with larger limits are in lockstep, unless
a limit stops the first. -/
theorem lockstep_within (large : Limits) :
    Lockstep (Machine.Roomier large) Stop.isLimit where
  program h := by rw [h.1]; rfl
  frames h := by rw [h.1]; rfl
  popOperand h := within_popOperand h
  popOperands h := within_popOperands h
  pushOperand h := within_pushOperand h
  setFrame h _ f := by
    obtain ⟨rfl, hm⟩ := h
    exact ⟨rfl, hm.operands, hm.calls, hm.hosts⟩
  pushCall h := within_pushCall h
  popCall h := within_popCall h
  observe h := within_observe h
  requestHalt h := by
    obtain ⟨rfl, hm⟩ := h
    exact ⟨rfl, hm.operands, hm.calls, hm.hosts⟩
  haltRequested h := by rw [h.1]; rfl
  operandCount h := by rw [h.1]; rfl
  setStatus h status := by
    obtain ⟨rfl, hm⟩ := h
    exact ⟨rfl, hm.operands, hm.calls, hm.hosts⟩

-- ========================================================= system calls

/-- A refused push ends the routine, and with it the step, in a fault of the
limit. -/
theorem within_perform_push {reenter : Reentry} {v : Value}
    {next : Except Fault Unit → Routine} (h : m₁.Roomier large m₂)
    (hrefused : ∀ site limit,
      next (.error ⟨site, .stackOverflow limit⟩)
        = .raise ⟨site, .stackOverflow limit⟩)
    (hnext : ∀ {m₁ m₂}, m₁.Roomier large m₂ →
      InStep (Machine.Roomier large) Stop.isLimit Eq m₁ m₂
        (perform reenter (next (.ok ())))
        (perform reenter (next (.ok ())))) :
    InStep (Machine.Roomier large) Stop.isLimit Eq m₁ m₂
      (perform reenter (.push v next))
      (perform reenter (.push v next)) := by
  have hpush := (lockstep_within large).hostPush h v
  have hopen : ∀ m, perform reenter (.push v next) m
      = (attempt (hostPush v) >>= fun answer => perform reenter (next answer) :
        Action Unit) m :=
    fun _ => rfl
  -- with the smaller limit the push may be refused where the larger one has
  -- room
  cases hrun : hostPush v m₁ with
  | ok _ m₁' =>
      obtain ⟨_, m₂', hrun₂, -, hr⟩ := hpush.of_ok hrun
      refine .of_eq ?_ ?_ (hnext hr)
      · simp only [hopen, Bind.bind, EStateM.bind, attempt, hrun]
      · simp only [hopen, Bind.bind, EStateM.bind, attempt, hrun₂]
  | error stop m₁' =>
      cases stop with
      | outOfFuel => exact ((hostPush_ensures v).ne_outOfFuel hrun).elim
      | fault g =>
          obtain ⟨-, site, limit, rfl⟩ := (hostPush_ensures v).of_fault hrun
          have hraised : perform reenter (.push v next) m₁
              = .error (.fault ⟨site, .stackOverflow limit⟩) m₁' := by
            rw [hopen]
            simp only [Bind.bind, EStateM.bind, attempt, hrun, hrefused]
            rfl
          -- the routine hands the refusal on, which excuses the other side
          exact .of_excused hraised ⟨_, rfl, rfl⟩

/-- By induction on the routine: what it is answered is the same on both sides
until a limit refuses it, and then it hands on the fault. -/
theorem within_perform {reenter : Reentry} {r : Routine} (hhands : r.HandsOn)
    (h : m₁.Roomier large m₂) :
    InStep (Machine.Roomier large) Stop.isLimit Eq m₁ m₂ (perform reenter r)
      (perform reenter r) := by
  induction r generalizing m₁ m₂ with
  | done => exact inStep_pure h ()
  | raise fault => exact .inr ⟨rfl, h⟩
  | pop next ih =>
      refine .bind ((lockstep_within large).hostPop h).attempt
        fun answer m₁' m₂' hrun h => ?_
      -- an empty stack is empty within both limits
      have hanswer : (attempt hostPop).Ensures m₁
          (fun answer _ => (next answer).HandsOn)
          fun _ _ => True := by
        refine Ensures.attempt
          (hostPop_ensures.mono (fun v _ _ => hhands.1 v) ?_)
        intro g _ hg
        obtain ⟨-, site, rfl⟩ := hg
        exact hhands.2 site
      exact ih answer (hanswer.of_ok hrun) h
  | push v next ih =>
      exact within_perform_push h hhands.2 fun h => ih _ hhands.1 h
  | requestHalt next ih =>
      exact ih hhands ((lockstep_within large).requestHalt h)
  | clearHalt next ih =>
      obtain ⟨rfl, hm⟩ := h
      have hcleared : m₁.clearHalt.Roomier large (m₁.within large).clearHalt :=
        ⟨rfl, hm.operands, hm.calls, hm.hosts⟩
      exact ih hhands hcleared
  | position next ih =>
      refine .get ?_
      rw [← (lockstep_within large).ip h]
      exact ih m₁.ip (hhands m₁.ip) h
  | pushFrame frame next => exact hhands.elim
  | advance how next => exact hhands.elim
  | register id calls next => exact hhands.elim
  | registerPrint id device next => exact hhands.elim

theorem within_register (h : m₁.Roomier large m₂) (id : Int32)
    {handler : Handler} (hhandler : handler.HandsOn) :
    (m₁.register id handler).Roomier large (m₂.register id handler) := by
  obtain ⟨rfl, hm⟩ := h
  exact ⟨rfl, hm.operands, hm.calls, hm.hosts.register hhandler⟩

/-- Printing asks neither stack for room. -/
theorem within_print (h : m₁.Roomier large m₂) (id : Int32)
    (device : Option Device) :
    InStep (Machine.Roomier large) Stop.isLimit Eq m₁ m₂
      (print id device) (print id device) := by
  refine (lockstep_within large).print (fun h _ => ?_)
    (fun h id device => ?_) h id device
  · obtain ⟨rfl, hm⟩ := h
    exact ⟨rfl, hm.operands, hm.calls, hm.hosts⟩
  · have hprint : Handler.HandsOn (.print device) := trivial
    exact within_register h id hprint

/-- Both machines find the same handler, and what it does is in step. -/
theorem within_syscall (reenter : Reentry) (h : m₁.Roomier large m₂)
    (site : Nat) (id : Int32) :
    InStep (Machine.Roomier large) Stop.isLimit Eq m₁ m₂
      (syscall reenter site id)
      (syscall reenter site id) := by
  have hhandler : m₂.handler? id = m₁.handler? id := by rw [h.1]; rfl
  refine .get ?_
  rw [hhandler]
  cases hfound : m₁.handler? id with
  | none => exact inStep_fail h site _
  | some handler =>
      have hhands := h.2.hosts.handler hfound
      have hobserved := within_observe h (.syscall site id)
      cases handler with
      | print device => exact within_print hobserved id device
      | routine calls count =>
          -- whatever the number of calls, the routine hands on what it is
          -- refused
          have hcounted : Handler.HandsOn (.routine calls (count + 1)) :=
            hhands
          exact within_perform (hhands count)
            (within_register hobserved id hcounted)

-- ================================================================== runs

/-- The entry frame has room in the larger machine if it has in the smaller
one. -/
theorem within_enter (h : m₁.Roomier large m₂) :
    InStep (Machine.Roomier large) Stop.isLimit Eq m₁ m₂ enter enter := by
  obtain ⟨rfl, hm⟩ := h
  by_cases hroom : 0 < m₁.calls.limit
  · have hroom' : 0 < (m₁.within large).calls.limit :=
      Nat.lt_of_lt_of_le hroom hm.calls
    unfold InStep
    rw [enter_eq_ok hroom, enter_eq_ok hroom']
    exact ⟨rfl, rfl, hm.operands, hm.calls, hm.hosts⟩
  · exact .of_excused (enter_eq_error hroom) ⟨_, rfl, rfl⟩

/-- A whole run is in step up to the first fault of a limit. -/
theorem within_start (h : m₁.Roomier large m₂) (fuel : Nat) :
    InStep (Machine.Roomier large) Stop.isLimit Eq m₁ m₂ (advance fuel .start)
      (advance fuel .start) := by
  cases fuel with
  | zero => exact .inr ⟨rfl, h⟩
  | succ fuel =>
      rw [advance_start_bind]
      exact .bind (within_enter h) fun _ _ _ _ h =>
        (lockstep_within large).run
          (fun reenter _ _ h => within_syscall reenter h) fuel h

end Action

namespace Machine

/-- Larger limits change nothing about a run that the smaller ones do not
stop. If a machine whose hosts hand on what they are refused is started and
comes to an end, other than by a fault of a limit, then with any larger
limits it comes to the same end: it takes as many steps, gives the same
answer or fault, and leaves the machine as it would be left otherwise, limits
apart, with the same operands and frames, the same text written and the same
events reported. -/
theorem start_within_larger {m : Machine} (hm : m.HandsOn)
    {small large : Limits} (hoperands : small.operands ≤ large.operands)
    (hcalls : small.calls ≤ large.calls) (fuel : Nat) {m' : Machine} :
    (∀ progress, Action.advance fuel .start (m.within small)
      = .ok progress m' →
      Action.advance fuel .start (m.within large)
        = .ok progress (m'.within large))
    ∧ ∀ g, Action.advance fuel .start (m.within small) = .error (.fault g) m' →
      g.cause.isLimit = false →
      Action.advance fuel .start (m.within large)
        = .error (.fault g) (m'.within large) := by
  have hroomier : (m.within small).Roomier large (m.within large) :=
    ⟨rfl, hoperands, hcalls, hm⟩
  have hstart := Action.within_start hroomier fuel
  constructor
  · intro progress hrun
    obtain ⟨_, m₂, hrun₂, rfl, hr⟩ := hstart.of_ok hrun
    rw [hrun₂, hr.1]
  · intro g hrun hg
    -- a fault of another kind is excused by nothing
    have hstop : ¬ (Stop.fault g).isLimit := by
      intro hlimit
      obtain ⟨_, heq, hlimit⟩ := hlimit
      cases heq
      rw [hg] at hlimit
      cases hlimit
    obtain ⟨m₂, hrun₂, hr⟩ := hstart.of_error hrun hstop
    rw [hrun₂, hr.1]

/-- Doubles a value with the help of the host and of a function, and then adds
what is not there. -/
def doubling : Program where
  constants := #[.int 21]
  code := #[{ opcode := .pushConst }, { opcode := .syscall, operand := 7 },
    { opcode := .call, operand := 1 }, { opcode := .add },
    { opcode := .loadLocal }, { opcode := .loadLocal, operand := 1 },
    { opcode := .add }, { opcode := .ret }]
  functions := #[⟨"main", 0, 0, 0⟩, ⟨"sum", 4, 2, 2⟩]
  entry := 0
  entry_lt := Nat.zero_lt_two

/-- Pushes a value, hands on a refusal, and goes on otherwise. -/
def pushThen (v : Value) (next : Routine) : Routine :=
  .push v fun answer =>
    match answer with
    | .ok _ => next
    | .error fault => .raise fault

/-- The host pops a value and pushes it twice; events are kept. -/
def doublingMachine : Machine :=
  (Machine.new doubling {} { keeps := true }).register 7 (.routine
    (fun _ => .pop fun answer =>
      match answer with
      | .ok v => pushThen v (pushThen v .done)
      | .error fault => .raise fault) 0)

/-- The host pushes twice and hands on what it is refused. -/
theorem doubling_handsOn : doublingMachine.HandsOn := by
  intro entry hmem
  obtain rfl := List.mem_singleton.mp hmem
  intro count
  exact ⟨fun v => ⟨⟨trivial, fun _ _ => rfl⟩, fun _ _ => rfl⟩,
    fun _ => trivial⟩

/-- Room for two operands and two frames is enough to get to the fault, and
room for more leads to the same one, after the same instructions. -/
theorem doubling_within_larger : ∃ m',
    Action.advance 10 .start (doublingMachine.within ⟨2, 2⟩)
        = .error (.fault ⟨3, .stackUnderflow⟩) m'
      ∧ Action.advance 10 .start (doublingMachine.within {})
        = .error (.fault ⟨3, .stackUnderflow⟩) (m'.within {})
      ∧ m'.events.length = 13 := by
  have hrun :
      ((Action.advance 10 .start).fault? (doublingMachine.within ⟨2, 2⟩)).map
      (fun r => (r.1, r.2.events.length))
        = some (⟨3, .stackUnderflow⟩, 13) := by decide +kernel
  obtain ⟨⟨g, m'⟩, hfault, hend⟩ := Option.map_eq_some_iff.mp hrun
  obtain ⟨rfl, hlength⟩ := Prod.mk.inj hend
  have hrun := Action.eq_error_of_fault? hfault
  have hoperands : Limits.operands ⟨2, 2⟩ ≤ Limits.operands {} := by decide
  have hcalls : Limits.calls ⟨2, 2⟩ ≤ Limits.calls {} := by decide
  exact ⟨m', hrun, (start_within_larger doubling_handsOn hoperands hcalls 10).2
    _ hrun rfl, hlength⟩

end Machine

end StackMachine
