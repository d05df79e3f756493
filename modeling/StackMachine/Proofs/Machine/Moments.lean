/-
A session, moment by moment. A host that holds a machine may do anything with
it, and so may the routines that it registers: they push and pop, push frames,
register handlers, and set the machine going again inside the instruction that
called them, as deep as they like. Carrying out a routine tells how all that
ends; a theorem about what holds meanwhile needs the machine in between.

A moment is what is being done, what waits for it, and the machine. `next?`
leads from one moment to the next: one request of a host, one step of the
machine, or, where the step is a system call that runs a routine, its beginning
and its end, with all the moments of the routine between the two. It has no
fuel and does not end where the machine runs on for ever.

Every outcome of a routine comes about this way (`perform_comes`): the
induction is on the fuel, and for each amount of it on the routine.
-/
import Mathlib.Logic.Relation
import StackMachine.Proofs.Machine.Placed
import StackMachine.Proofs.Machine.Simulation

namespace StackMachine

-- =============================================================== moments

/-- What is being done. -/
inductive Doing where
  /-- A host makes its requests. -/
  | performing (r : Routine)
  /-- A host has returned. -/
  | returned (answer : Except Fault Unit)
  /-- The machine is set going. -/
  | going (how : Advance)
  /-- The machine is cleared, and its entry function is to be entered. -/
  | entering
  /-- The machine has stopped. -/
  | stopped (answer : Except Fault Progress)

/-- An entry that succeeds is followed by a run. -/
def Doing.entered : Except Fault Unit → Doing
  | .ok _ => .going .run
  | .error fault => .stopped (.error fault)

/-- A run goes on after a step that does not end it. -/
def Doing.stepped : Except Fault Progress → Doing
  | .ok .running => .going .run
  | answer => .stopped answer

/-- What goes on when something is done. -/
inductive Waiting where
  /-- A host that set the machine going. -/
  | host (next : Except Fault Progress → Routine)
  /-- A run that has another step to take. -/
  | run
  /-- The instruction that called a host, and the number of frames when
  it was fetched. -/
  | syscall (site depth : Nat)

/-- A moment of a session. -/
structure Moment where
  doing : Doing
  waiting : List Waiting
  machine : Machine

namespace Action

/-- Enters the entry function of a machine that is cleared. -/
def pushEntry : Action Unit := fun m =>
  let f := m.program.entryFunction
  match hostPushFrame m.program.entryFrame m with
  | .ok () m => .ok () (m.observe (.started f))
  | .error (.fault fault) m => .error (.fault fault) (noteFault fault m)
  | .error .outOfFuel m => .error .outOfFuel m

/-- To enter is to clear the machine and push the entry frame. -/
theorem enter_eq_pushEntry (m : Machine) : enter m = pushEntry m.cleared := rfl

/-- Where there is room, the entry frame is pushed and the start is
reported. -/
theorem pushEntry_eq_ok {m : Machine}
    (h : m.calls.items.size < m.calls.limit) :
    pushEntry m = .ok () (Machine.observe
      { m with
        calls :=
          { m.calls with items := m.calls.items.push m.program.entryFrame }
        status := .running }
      (.started m.program.entryFunction)) := by
  unfold pushEntry
  rw [hostPushFrame_eq_ok h]

/-- Where there is none, the start is refused at the entry. -/
theorem pushEntry_eq_error {m : Machine}
    (h : ¬ m.calls.items.size < m.calls.limit) :
    pushEntry m = .error
      (.fault ⟨m.program.entryFrame.ip, .callDepthExceeded m.calls.limit⟩)
      (noteFault
        ⟨m.program.entryFrame.ip, .callDepthExceeded m.calls.limit⟩ m) := by
  unfold pushEntry
  rw [hostPushFrame_eq_error h]

/-- One of the two always comes about. -/
theorem pushEntry_ensures {m : Machine} :
    pushEntry.Ensures m (fun _ _ => True) fun _ _ => True := by
  unfold Ensures
  by_cases hroom : m.calls.items.size < m.calls.limit
  · rw [pushEntry_eq_ok hroom]
    trivial
  · rw [pushEntry_eq_error hroom]
    trivial

/-- What is left of a step when the host that it called has returned. -/
def afterHost (site depth : Nat)
    (answer : Except Fault Unit) : Action Progress :=
  noted
    (match answer with
    | .ok _ => do
      carryOut site depth .next
      settle
    | .error fault => throw (.fault fault))

end Action

/-- The routine that the next step of the machine runs, the instruction that
calls it, and the machine in which it runs; none if the step runs no
routine. -/
def Machine.hosted? (m : Machine) : Option (Nat × Routine × Machine) :=
  if m.haltRequested then none
  else
    match m.calls.top? with
    | none => none
    | some f =>
      match m.program.code[f.ip]? with
      | none => none
      | some i =>
        if i.opcode = .syscall then
          match m.handler? i.operand with
          | some (.routine calls count) =>
            let m :=
              { m with status := .running }.observe
                (.instruction f.ip i m.operands.size)
            let m := m.observe (.syscall f.ip i.operand)
            some (f.ip, calls count,
              m.register i.operand (.routine calls (count + 1)))
          | _ => none
        else none

/-- What it is for the next step of a machine to run a routine. -/
inductive Machine.Hosts (m : Machine) : Nat → Routine → Machine → Prop
  | intro {f : Frame} {i : Instruction} {calls : Nat → Routine} {count : Nat}
    (hhalt : m.haltRequested = false) (htop : m.calls.top? = some f)
    (hi : m.program.code[f.ip]? = some i) (hop : i.opcode = .syscall)
    (hfound : m.handler? i.operand = some (.routine calls count)) :
    Hosts m f.ip (calls count)
      (Machine.register
        (Machine.observe
          (Machine.observe { m with status := .running }
            (.instruction f.ip i m.operands.size))
          (.syscall f.ip i.operand))
        i.operand (.routine calls (count + 1)))

/-- What the step is found to run, it runs. -/
theorem Machine.hosts_of_hosted {m m' : Machine} {site : Nat} {r : Routine}
    (h : m.hosted? = some (site, r, m')) : m.Hosts site r m' := by
  unfold hosted? at h
  split at h
  · cases h
  next hhalt =>
  split at h
  · cases h
  next f htop =>
  split at h
  · cases h
  next i hi =>
  split at h
  · next hop =>
      split at h
      · next calls count hfound =>
          cases h
          exact .intro (eq_false_of_ne_true hhalt) htop hi hop hfound
      · cases h
  · cases h

/-- At most the running frame was moved. -/
def Machine.Nudged (m m' : Machine) : Prop :=
  m'.program = m.program
    ∧ (m'.calls.items = m.calls.items
      ∨ ∃ (rest : Array Frame) (f : Frame) (ip : Nat),
        m.calls.items = rest.push f
          ∧ m'.calls.items = rest.push { f with ip })

section Unhosted

variable {m : Machine} {f : Frame} {i : Instruction} (h : m.hosted? = none)
  (hhalt : m.haltRequested = false) (htop : m.calls.top? = some f)
  (hi : m.program.code[f.ip]? = some i) (hop : i.opcode = .syscall)

include h hhalt htop hi hop

/-- A step that runs no routine finds none under its number. -/
theorem Machine.not_routine_of_unhosted (calls : Nat → Routine) (count : Nat) :
    m.handler? i.operand ≠ some (.routine calls count) := by
  intro hfound
  simp [hosted?, hhalt, htop, hi, hop, hfound] at h

/-- Where the step runs no routine, its handler raises nothing of its own. -/
theorem Machine.confined_of_unhosted {raises : Fault → Prop}
    {handler : Handler} (hfound : m.handler? i.operand = some handler) :
    handler.Confined raises := by
  cases handler with
  | print device => trivial
  | routine calls count =>
      exact absurd hfound
        (not_routine_of_unhosted h hhalt htop hi hop calls count)

end Unhosted

namespace Action

variable {reenter reenter' : Reentry} {m m' : Machine} {site : Nat}
  {r : Routine}

/-- Noting the outcome of two actions is noting that of the second where the
first succeeds. -/
theorem noted_bind (a : Action Unit) (rest : Action Progress) :
    noted (a >>= fun _ => rest) m
      = (attempt a >>= fun answer => noted
          (match answer with
          | .ok _ => rest
          | .error fault => throw (.fault fault))) m := by
  unfold noted attempt
  simp only [Bind.bind, EStateM.bind]
  cases a m with
  | ok x m' => rfl
  | error stop m' =>
      cases stop with
      | fault g => rfl
      | outOfFuel => rfl

/-- A system call is dispatched by serving it and going on to the next
instruction. -/
theorem dispatch_syscall {i : Instruction} (hop : i.opcode = .syscall)
    (depth : Nat) :
    dispatch reenter site depth i m
      = (syscall reenter site i.operand >>= fun _ => carryOut site depth .next
        >>= fun _ => settle)
          m := by
  unfold dispatch execute
  rw [hop]
  simp only [Bind.bind, EStateM.bind]
  cases syscall reenter site i.operand m with
  | ok x m' => rfl
  | error stop m' => rfl

/-- A step that runs a routine ends as what is left of it does when the
routine has returned. -/
theorem step_hosted (h : m.hosted? = some (site, r, m')) :
    step reenter m
      = (attempt (perform reenter r) >>= afterHost site m.calls.size) m' := by
  have hiterate : iterate reenter { m with status := .running }
      = (perform reenter r >>= fun _ =>
          carryOut site m.calls.size .next >>= fun _ => settle) m' := by
    cases Machine.hosts_of_hosted h with
    | @intro f i calls count hhalt htop hi hop hfound =>
        let m₀ : Machine := { m with status := .running }
        have hfetched : iterate reenter m₀
            = dispatch reenter f.ip m.calls.size i
              (m₀.observe (.instruction f.ip i m.operands.size)) :=
          iterate_fetched hhalt htop hi
        -- the routine runs between the report of the call and the transfer
        -- behind it
        rw [hfetched, dispatch_syscall hop]
        simp only [Bind.bind, EStateM.bind]
        rw [syscall_routine
          (m := m₀.observe (.instruction f.ip i m.operands.size)) hfound]
  calc step reenter m
      = noted (iterate reenter) { m with status := .running } :=
    step_eq_noted reenter m
    _ = noted
          (perform reenter r >>= fun _ => carryOut site m.calls.size .next
            >>= fun _ => settle)
          m' := by
        unfold noted
        rw [hiterate]
    _ = (attempt (perform reenter r) >>= afterHost site m.calls.size) m' :=
      noted_bind _ _

/-- How a host would set the machine going does not matter to a step that runs
no routine. -/
theorem step_unhosted (h : m.hosted? = none) :
    step reenter m = step reenter' m := by
  have hiterate : iterate reenter { m with status := .running }
      = iterate reenter' { m with status := .running } := by
    refine iterate_reentry_of_syscall fun f i hhalt htop hi hop => ?_
    have hconfined : ∀ handler, m.handler? i.operand = some handler →
        handler.Confined fun _ => False := fun _ hfound =>
      Machine.confined_of_unhosted h hhalt htop hi hop hfound
    exact syscall_reentry hconfined
  unfold step
  rw [hiterate]

/-- A step that runs no routine makes a move. -/
theorem step_unhosted_ensures (h : m.hosted? = none) :
    (step reenter).Ensures m (fun _ m' => m.Turned m')
      (fun _ m' => m.Turned m') := by
  have hserved : ServedBeside (fun _ => False) reenter
      { m with status := .running } := by
    intro rest f i hhalt htop hi hop
    refine syscall_ensures fun handler hfound => ?_
    exact Machine.confined_of_unhosted h hhalt
      (Stack.top?_of_push htop) hi hop hfound
  exact (step_ensures_of_served hserved).mono (fun _ _ ht => ht)
    fun _ _ ht => ht.1

/-- A system call that has returned moves the running frame behind it, or
leaves whatever frame is on top alone. -/
theorem carryOut_next_ensures (site depth : Nat) :
    (carryOut site depth .next).Ensures m (fun _ m' => m.Nudged m')
      (fun g m' => m.Nudged m' ∧ g.cause = .corruptedCallStack) := by
  have hsame : m.Nudged m := ⟨rfl, .inl rfl⟩
  show (if m.calls.size = depth then _ else _ : Action Unit).Ensures m _ _
  by_cases hdepth : m.calls.size = depth
  · rw [if_pos hdepth]
    cases hback : m.calls.items.back? with
    | none =>
        unfold Ensures currentFrame onCalls CallStack.current Stack.top
        simp only [Bind.bind, EStateM.bind, hback]
        exact ⟨hsame, rfl⟩
    | some f =>
        obtain ⟨rest, htop⟩ := Array.back?_eq_some_iff.mp hback
        refine Ensures.bind (fun g m' => g = f ∧ m' = m)
          (.ok (currentFrame_eq htop) ⟨rfl, rfl⟩) ?_
        intro g m' hg
        obtain ⟨rfl, rfl⟩ := hg
        by_cases hip : g.ip = site
        · rw [if_pos hip]
          exact ⟨rfl, .inr ⟨rest, g, site + 1, htop, replaceTop_items htop _⟩⟩
        · rw [if_neg hip]
          exact hsame
  · rw [if_neg hdepth]
    exact hsame

/-- What is left of a step when its host is done moves at most the frame that
stood at the call. -/
theorem afterHost_ensures (site depth : Nat) (answer : Except Fault Unit) :
    (afterHost site depth answer).Ensures m (fun _ m' => m.Nudged m')
      (fun _ m' => m.Nudged m') := by
  have hrest : Ensures
      (match answer with
      | .ok _ => do
        carryOut site depth .next
        settle
      | .error fault => throw (.fault fault))
      m (fun _ m' => m.Nudged m') (fun _ m' => m.Nudged m') := by
    cases answer with
    | ok _ =>
        have hnext :=
          (carryOut_next_ensures (m := m) site depth).mono (fun _ _ h => h)
            fun _ _ h => h.1
        exact Ensures.bind _ hnext fun _ _ h => h
    | error fault => exact ⟨rfl, .inl rfl⟩
  exact hrest.noted (fun _ h => h) (fun _ _ h => h) fun _ _ h => h

/-- A host that pushes a frame is always answered. -/
theorem hostPushFrame_ensures (f : Frame) :
    (hostPushFrame f).Ensures m (fun _ _ => True) fun _ _ => True := by
  unfold Ensures
  by_cases hroom : m.calls.items.size < m.calls.limit
  · rw [hostPushFrame_eq_ok hroom]
    trivial
  · rw [hostPushFrame_eq_error hroom]
    trivial

end Action

namespace Moment

/-- The moment after an action whose answer or fault something goes on
with. -/
def after {α : Type} (a : Action α) (m : Machine)
    (doing : Except Fault α → Doing)
    (waiting : List Waiting) : Option Moment :=
  match a m with
  | .ok x m => some ⟨doing (.ok x), waiting, m⟩
  | .error (.fault fault) m => some ⟨doing (.error fault), waiting, m⟩
  | .error .outOfFuel _ => none

/-- The moment after a request of a host. -/
def request (r : Routine) (waiting : List Waiting)
    (m : Machine) : Option Moment :=
  match r with
  | .done => some ⟨.returned (.ok ()), waiting, m⟩
  | .raise fault => some ⟨.returned (.error fault), waiting, m⟩
  | .pop next =>
    after Action.hostPop m (fun answer => .performing (next answer)) waiting
  | .push v next =>
    after (Action.hostPush v) m (fun answer => .performing (next answer))
      waiting
  | .requestHalt next => some ⟨.performing next, waiting, m.requestHalt⟩
  | .clearHalt next => some ⟨.performing next, waiting, m.clearHalt⟩
  | .position next => some ⟨.performing (next m.ip), waiting, m⟩
  | .pushFrame frame next =>
    after (Action.hostPushFrame frame) m
      (fun answer => .performing (next answer)) waiting
  | .advance how next => some ⟨.going how, .host next :: waiting, m⟩
  | .register id calls next =>
    some ⟨.performing next, waiting, m.register id (.routine calls 0)⟩
  | .registerPrint id device next =>
    some ⟨.performing next, waiting, m.register id (.print device)⟩

/-- The moment after a machine is set going. A step that runs no routine is
taken at once. -/
def go (how : Advance) (waiting : List Waiting)
    (m : Machine) : Option Moment :=
  match how with
  | .step =>
    match m.hosted? with
    | some (site, r, m') =>
      some ⟨.performing r, .syscall site m.calls.size :: waiting, m'⟩
    | none => after (Action.step (Action.advance 0)) m .stopped waiting
  | .run => some ⟨.going .step, .run :: waiting, m⟩
  | .start => some ⟨.entering, waiting, m.cleared⟩

/-- The next moment; none if nothing is left to be done. -/
def next? (now : Moment) : Option Moment :=
  match now.doing, now.waiting with
  | .performing r, waiting => request r waiting now.machine
  | .going how, waiting => go how waiting now.machine
  | .entering, waiting => after Action.pushEntry now.machine .entered waiting
  | .returned answer, .syscall site depth :: waiting =>
    after (Action.afterHost site depth answer) now.machine .stopped waiting
  | .stopped answer, .run :: waiting =>
    some ⟨.stepped answer, waiting, now.machine⟩
  | .stopped answer, .host next :: waiting =>
    some ⟨.performing (next answer), waiting, now.machine⟩
  | _, _ => none

/-- The session leads from one moment to another. -/
def Leads : Moment → Moment → Prop :=
  Relation.ReflTransGen fun a b => a.next? = some b

-- ============================================================== outcomes

variable {α β : Type} {m : Machine} {doing : Except Fault α → Doing}
  {waiting : List Waiting} {now : Moment}
  {outcome : EStateM.Result Stop Machine α}

/-- From this moment, the session comes to an outcome. One without fuel leaves
the machine of some moment. -/
inductive Comes (doing : Except Fault α → Doing) (waiting : List Waiting)
    (now : Moment) :
    EStateM.Result Stop Machine α → Prop
  | answer {x : α} {m' : Machine}
      (h : now.Leads ⟨doing (.ok x), waiting, m'⟩) :
    Comes doing waiting now (.ok x m')
  | fault {g : Fault} {m' : Machine}
      (h : now.Leads ⟨doing (.error g), waiting, m'⟩) :
    Comes doing waiting now (.error (.fault g) m')
  | cut {later : Moment} (h : now.Leads later) :
    Comes doing waiting now (.error .outOfFuel later.machine)

/-- An outcome may be awaited from any earlier moment. -/
theorem Comes.of_leads {later : Moment} (h : now.Leads later)
    (hlater : Comes doing waiting later outcome) :
    Comes doing waiting now outcome := by
  cases hlater with
  | answer hlater => exact .answer (h.trans hlater)
  | fault hlater => exact .fault (h.trans hlater)
  | cut hlater => exact .cut (h.trans hlater)

theorem Comes.of_next {later : Moment} (h : now.next? = some later)
    (hlater : Comes doing waiting later outcome) :
    Comes doing waiting now outcome :=
  hlater.of_leads (Relation.ReflTransGen.single h)

/-- What is done at once is the next moment. -/
theorem Comes.of_after {a : Action α} {answer : α → Machine → Prop}
    {fault : Fault → Machine → Prop} (ha : a.Ensures m answer fault)
    (h : now.next? = after a m doing waiting) :
    Comes doing waiting now (a m) := by
  unfold after at h
  cases hrun : a m with
  | ok x m' =>
      rw [hrun] at h
      exact .answer (Relation.ReflTransGen.single h)
  | error stop m' =>
      rw [hrun] at h
      cases stop with
      | fault g => exact .fault (Relation.ReflTransGen.single h)
      | outOfFuel => exact absurd hrun ha.ne_outOfFuel

/-- What goes on with the answer or the fault of an action goes on from the
moment of it. -/
theorem Comes.bind {a : Action α} {next : Except Fault α → Action β}
    {doing' : Except Fault β → Doing} {waiting' : List Waiting}
    (ha : Comes doing waiting now (a m))
    (hnext : ∀ answer m',
      Comes doing' waiting' ⟨doing answer, waiting, m'⟩ (next answer m')) :
    Comes doing' waiting' now ((Action.attempt a >>= next) m) := by
  simp only [Bind.bind, EStateM.bind, Action.attempt]
  generalize a m = outcome at ha ⊢
  cases ha with
  | answer h => exact (hnext _ _).of_leads h
  | fault h => exact (hnext _ _).of_leads h
  | cut h => exact .cut h

section Fuel

-- What the fuel is enough for comes to its end; the rest is the
-- induction on the fuel.
variable {fuel : Nat} (hadvance : ∀ how m waiting,
  Comes .stopped waiting ⟨.going how, waiting, m⟩ (Action.advance fuel how m))

include hadvance

/-- The requests of a host come to what its routine comes to. -/
theorem perform_comes_of (r : Routine) (m : Machine) (waiting : List Waiting) :
    Comes .returned waiting ⟨.performing r, waiting, m⟩
      (Action.perform (Action.advance fuel) r m) := by
  induction r generalizing m with
  | done => exact .answer (Relation.ReflTransGen.single rfl)
  | raise fault => exact .fault (Relation.ReflTransGen.single rfl)
  | pop next ih => exact .bind (.of_after Action.hostPop_ensures rfl) ih
  | push v next ih =>
      exact .bind (.of_after (Action.hostPush_ensures v) rfl) ih
  | requestHalt next ih => exact .of_next rfl (ih m.requestHalt)
  | clearHalt next ih => exact .of_next rfl (ih m.clearHalt)
  | position next ih => exact .of_next rfl (ih m.ip m)
  | pushFrame frame next ih =>
      exact .bind (.of_after (Action.hostPushFrame_ensures frame) rfl) ih
  | advance how next ih =>
      have hgoing := hadvance how m (.host next :: waiting)
      refine .of_next rfl (.bind hgoing fun answer m' => ?_)
      exact .of_next rfl (ih answer m')
  | register id calls next _ ih => exact .of_next rfl (ih _)
  | registerPrint id device next ih => exact .of_next rfl (ih _)

/-- A step comes to its end through that of the routine that it runs, if it
runs one. -/
theorem step_comes_of (m : Machine) (waiting : List Waiting) :
    Comes .stopped waiting ⟨.going .step, waiting, m⟩
      (Action.step (Action.advance fuel) m) := by
  have hgo : next? ⟨.going .step, waiting, m⟩ = go .step waiting m := rfl
  unfold go at hgo
  cases hhosted : m.hosted? with
  | none =>
      have hstep : Action.step (Action.advance fuel) m
          = Action.step (Action.advance 0) m :=
        Action.step_unhosted hhosted
      rw [hhosted] at hgo
      rw [hstep]
      exact .of_after (Action.step_unhosted_ensures hhosted) hgo
  | some hosted =>
      obtain ⟨site, r, m'⟩ := hosted
      rw [hhosted] at hgo
      rw [Action.step_hosted hhosted]
      refine .of_next hgo
        (.bind (perform_comes_of hadvance r m' _) fun answer m'' => ?_)
      exact .of_after (Action.afterHost_ensures site m.calls.size answer) rfl

/-- A run comes to its end step by step. -/
theorem run_comes_of (m : Machine) (waiting : List Waiting) :
    Comes .stopped waiting ⟨.going .run, waiting, m⟩
      (Action.advance (fuel + 1) .run m) := by
  have hnext : next? ⟨.going .run, waiting, m⟩
      = some ⟨.going .step, .run :: waiting, m⟩ := rfl
  have hstep := step_comes_of hadvance m (.run :: waiting)
  rw [Action.advance_run_succ]
  generalize Action.step (Action.advance fuel) m = outcome at hstep ⊢
  refine .of_next hnext ?_
  cases hstep with
  | @answer progress m' h =>
      cases progress with
      | running => exact .of_leads h (.of_next rfl (hadvance .run m' waiting))
      | halted reason => exact .answer (h.tail rfl)
  | fault h => exact .fault (h.tail rfl)
  | cut h => exact .cut h

/-- A start clears the machine, enters, and runs on. -/
theorem start_comes_of (m : Machine) (waiting : List Waiting) :
    Comes .stopped waiting ⟨.going .start, waiting, m⟩
      (Action.advance (fuel + 1) .start m) := by
  have hnext : next? ⟨.going .start, waiting, m⟩
      = some ⟨.entering, waiting, m.cleared⟩ := rfl
  have hentry : Comes .entered waiting ⟨.entering, waiting, m.cleared⟩
      (Action.pushEntry m.cleared) := .of_after Action.pushEntry_ensures rfl
  rw [Action.advance_start_succ, Action.enter_eq_pushEntry]
  generalize Action.pushEntry m.cleared = outcome at hentry ⊢
  refine .of_next hnext ?_
  cases hentry with
  | answer h => exact .of_leads h (hadvance .run _ waiting)
  | fault h => exact .fault h
  | cut h => exact .cut h

end Fuel

/-- By induction on the fuel: going on in a session comes to the outcome that
the machine comes to by itself, with the same hosts still waiting. -/
theorem advance_comes (fuel : Nat) (how : Advance) (m : Machine)
    (waiting : List Waiting) :
    Comes .stopped waiting ⟨.going how, waiting, m⟩
      (Action.advance fuel how m) := by
  induction fuel generalizing how m waiting with
  | zero => exact .cut Relation.ReflTransGen.refl
  | succ fuel ih =>
      cases how with
      | step => exact step_comes_of ih m waiting
      | run => exact run_comes_of ih m waiting
      | start => exact start_comes_of ih m waiting

/-- Whatever a routine comes to, the session comes to, moment by moment. -/
theorem perform_comes (fuel : Nat) (r : Routine) (m : Machine)
    (waiting : List Waiting) :
    Comes .returned waiting ⟨.performing r, waiting, m⟩
      (Action.perform (Action.advance fuel) r m) :=
  perform_comes_of (advance_comes fuel) r m waiting

end Moment

end StackMachine
