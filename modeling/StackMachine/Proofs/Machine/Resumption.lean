/-
Halts and resumptions. A machine may be asked to halt at any time: by its
observer, at any instruction, by the host, between any two iterations, and by
its own halt instructions. A host that withdraws the request and sets the
machine going again, as often as it halts, gets the same execution whatever
the requests were: the same instructions in the same order, the same end, and
the same stacks and text at it.

Nothing relates two such executions step by step, since each has its own
pauses. Both are compared with one that has none: `Unbroken` repeats
iterations with the request withdrawn before each of them until the last frame
is gone or one faults. Pauses leave the machine alike, and an iteration that is
made is made by both, so every execution ends as the unbroken one does
(`Unbroken.of_resumed`), of which there is only one (`Unbroken.unique`).
-/
import StackMachine.Proofs.Machine.Alike
import StackMachine.Proofs.Machine.Reaches

namespace StackMachine

-- ==================================================== resumed executions

/-- How an execution ends: with a fault or, without one, complete, and with
what is left then. -/
structure Ending where
  fault : Option Fault
  operands : Array Value
  frames : Array Frame
  output : ByteArray
  /-- The instructions that were dispatched, in order. -/
  dispatched : List Event

/-- When a machine is asked to halt. -/
structure Schedule where
  /-- Whether the observer asks at the `n`-th instruction, counted from
  zero. -/
  sink : Nat → Bool
  /-- After how many iterations the host asks, counted each time from its last
  request or from where it set the machine going again. A run that ends before
  that is not asked. -/
  gaps : List Nat

namespace Machine

/-- The machine with an observer that keeps its events and asks for these
halts. -/
def watched (m : Machine) (sink : Nat → Bool) : Machine :=
  { m with observer := { keeps := true, haltsAt := sink } }

def ending (m : Machine) (fault : Option Fault) : Ending :=
  { fault, operands := m.operands.items, frames := m.calls.items,
    output := m.output
    dispatched := m.dispatched }

/-- What a host does after a run. One that halted is resumed, with the request
withdrawn; one whose iterations are used up is asked to halt and goes on. -/
def goOn (rest : Machine → Option Ending) :
    EStateM.Result Stop Machine Progress → Option Ending
  | .ok (.halted .completed) m => some (m.ending none)
  | .ok (.halted .haltRequested) m => rest m.clearHalt
  -- no run gives this answer
  | .ok .running _ => none
  | .error (.fault g) m => some (m.ending (some g))
  | .error .outOfFuel m => rest m.requestHalt

/-- The end that a machine comes to when it is resumed as often as it halts;
none if the schedule is over before that. -/
def resumed : (gaps : List Nat) → Machine → Option Ending
  | [], _ => none
  | n :: gaps, m => goOn (resumed gaps) (Action.advance n .run m)

/-- The end that a machine comes to when it is started at its entry and
resumed as often as it halts. -/
def executed (m : Machine) (s : Schedule) : Option Ending :=
  match s.gaps with
  | [] => none
  | n :: gaps =>
    goOn (resumed gaps) (Action.advance (n + 1) .start (m.watched s.sink))

end Machine

-- ================================================== unbroken executions

/-- The end that a machine comes to when no request for a halt is heeded. -/
inductive Unbroken : Machine → Ending → Prop
  | completed {m : Machine} (hempty : m.calls.isEmpty) :
    Unbroken m (m.ending none)
  | faulted {m m' : Machine} {g : Fault} (hframes : ¬ m.calls.isEmpty)
    (h : Action.iterate (Action.advance 0) m.clearHalt
      = .error (.fault g) m') :
    Unbroken m (m'.ending (some g))
  | onward {m m' : Machine} {progress : Progress} {e : Ending}
    (hframes : ¬ m.calls.isEmpty)
    (h : Action.iterate (Action.advance 0) m.clearHalt = .ok progress m')
    (hrest : Unbroken m' e) : Unbroken m e

/-- An execution has one ending. -/
theorem Unbroken.unique {m : Machine} {e₁ e₂ : Ending} (h₁ : Unbroken m e₁)
    (h₂ : Unbroken m e₂) : e₁ = e₂ := by
  induction h₁ with
  | completed hempty =>
      cases h₂ with
      | completed => rfl
      | faulted hframes => exact absurd hempty hframes
      | onward hframes => exact absurd hempty hframes
  | faulted hframes hrun =>
      cases h₂ with
      | completed hempty => exact absurd hempty hframes
      | faulted _ hrun' =>
          rw [hrun] at hrun'
          cases hrun'
          rfl
      | onward _ hrun' =>
          rw [hrun] at hrun'
          cases hrun'
  | onward hframes hrun _ ih =>
      cases h₂ with
      | completed hempty => exact absurd hempty hframes
      | faulted _ hrun' =>
          rw [hrun] at hrun'
          cases hrun'
      | onward _ hrun' hrest =>
          rw [hrun] at hrun'
          cases hrun'
          exact ih hrest

-- ================================================================ steps

namespace Machine

variable {m m₁ m₂ : Machine}

theorem Alike.ending (h : m₁.Alike m₂) (fault : Option Fault) :
    m₁.ending fault = m₂.ending fault := by
  unfold Machine.ending
  rw [h.operands, h.calls, h.output, h.dispatched]

theorem status_alike (m : Machine) (status : Status) :
    Machine.Alike { m with status } m :=
  ⟨rfl, rfl, rfl, rfl, rfl, rfl, rfl⟩

/-- An event that is not an instruction changes nothing that counts. -/
theorem observe_alike (m : Machine) {e : Event}
    (he : e.isInstruction = false) :
    (m.observe e).Alike m := by
  have hdispatched : (m.observe e).dispatched = m.dispatched := by
    rw [dispatched_observe, he, Bool.and_false, if_neg Bool.false_ne_true]
  cases e <;> exact ⟨rfl, rfl, rfl, rfl, rfl, rfl, hdispatched⟩

theorem Confined.of_alike {raises : Fault → Prop} (hm : m₁.Confined raises)
    (h : m₁.Alike m₂) :
    m₂.Confined raises :=
  hm.of_handlers h.handlers.symm

end Machine

namespace Action

variable {raises : Fault → Prop} {reenter reenter' : Reentry} {m m' : Machine}

/-- A machine that is to halt, or that has no frame, stays as it is. -/
theorem iterate_idle (h : m.haltRequested ∨ m.calls.isEmpty) :
    ∃ progress, iterate reenter m = .ok progress m := by
  have hcases := iterate_iteration reenter m
  have hframes : ∀ {rest : Array Frame} {f}, ¬ m.haltRequested →
      m.calls.items ≠ rest.push f := by
    intro rest f hhalt htop
    rw [Stack.isEmpty, htop] at h
    simp [hhalt] at h
  generalize iterate reenter m = outcome at hcases ⊢
  cases hcases with
  | halting => exact ⟨_, rfl⟩
  | finished => exact ⟨_, rfl⟩
  | ranOff hhalt htop => exact (hframes hhalt htop).elim
  | astray hhalt htop => exact (hframes hhalt htop).elim
  | fetched hhalt htop => exact (hframes hhalt htop).elim

/-- What a step adds to its iteration changes nothing that counts. -/
theorem agree_noted :
    Agree Eq m { m with status := .running } (step reenter)
      (iterate reenter) := by
  unfold Agree step
  cases iterate reenter { m with status := .running } with
  | ok progress m₁ =>
      cases progress with
      | running => exact ⟨rfl, .refl m₁⟩
      | halted reason =>
          exact ⟨rfl,
            (Machine.observe_alike _ rfl).trans (m₁.status_alike .halted)⟩
  | error stop m₁ =>
      cases stop with
      | fault g =>
          exact ⟨rfl,
            (Machine.observe_alike _ rfl).trans (m₁.status_alike .faulted)⟩
      | outOfFuel => exact ⟨rfl, .refl m₁⟩

/-- A step that is held back, or has nothing left to run, only answers. -/
theorem step_idle (h : m.haltRequested ∨ m.calls.isEmpty) :
    ∃ progress m', step reenter m = .ok progress m' ∧ m'.Alike m := by
  let m₀ : Machine := { m with status := .running }
  have h₀ : m₀.haltRequested ∨ m₀.calls.isEmpty := h
  obtain ⟨progress, hrun⟩ := @iterate_idle reenter m₀ h₀
  rcases (@agree_noted reenter m).outcomes with
    ⟨_, _, m', m₁, hstep, hrun', -, hm'⟩ | ⟨_, _, _, -, hrun', -⟩
  · cases hrun.symm.trans hrun'
    exact ⟨_, m', hstep, hm'.trans (m.status_alike .running)⟩
  · cases hrun.symm.trans hrun'

/-- A step that completes the execution leaves no frame. -/
theorem isEmpty_of_step_completed
    (h : step reenter m = .ok (.halted .completed) m') :
    m'.calls.isEmpty := by
  rcases (@agree_noted reenter m).outcomes with
    ⟨_, _, _, m₁, hstep, hrun, rfl, hm₁⟩ | ⟨_, _, _, hstep, -, -⟩
  · cases h.symm.trans hstep
    have hsettled := settles_iterate _ _ _ hrun
    unfold Machine.settled at hsettled
    rw [hm₁.calls]
    by_cases hempty : m₁.calls.isEmpty
    · exact hempty
    · split at hsettled <;> simp_all
  · cases h.symm.trans hstep

/-- A step of a machine that is not to halt does what an iteration does from
any machine that is alike, once that is not to halt either. -/
theorem agree_step (hm : m.Confined raises) (h : m.Alike m')
    (hhalt : m.haltRequested = false) :
    Agree (fun _ _ => True) m m'.clearHalt (step reenter)
      (iterate reenter') := by
  let m₀ : Machine := { m with status := .running }
  have h₀ : m₀.Alike m'.clearHalt :=
    ((m.status_alike .running).trans h).trans m'.clearHalt_alike.symm
  have hm₀ : m₀.Confined raises := hm
  have hiterate : Agree (fun _ _ => True) m₀ m'.clearHalt (iterate reenter)
      (iterate reenter) :=
    agree_iterate h₀ hm₀ hhalt rfl
  have hstep := agree_noted.trans hiterate
  unfold Agree at hstep ⊢
  rw [iterate_reentry (hm₀.of_alike h₀)] at hstep
  exact hstep

end Action

namespace Unbroken

variable {raises : Fault → Prop} {m n : Machine} {e : Ending}

/-- A step leads to the end that the unbroken execution comes to, if what is
left of it does. -/
theorem of_step (reenter : Reentry) (hm : m.Confined raises) (h : m.Alike n)
    (hok : ∀ progress m' n', Action.step reenter m = .ok progress m' →
      m'.Alike n' →
      Unbroken n' e)
    (hfault : ∀ g m', Action.step reenter m = .error (.fault g) m' →
      m'.ending (some g) = e) :
    Unbroken n e := by
  by_cases hidle : m.haltRequested ∨ m.calls.isEmpty
  · -- a pause, which the unbroken execution does not make
    obtain ⟨progress, m', hstep, hm'⟩ := Action.step_idle hidle
    exact hok progress m' n hstep (hm'.trans h)
  · -- an iteration, which both make
    simp only [not_or, Bool.not_eq_true] at hidle
    have hframes : ¬ n.calls.isEmpty := by
      rw [← h.calls]
      simpa using hidle.2
    rcases (Action.agree_step hm h hidle.1).outcomes with
      ⟨progress, _, m', n', hstep, hrun, -, halike⟩ | ⟨stop, m', n',
        hstep, hrun, halike⟩
    · exact .onward hframes hrun (hok progress m' n' hstep halike)
    · cases stop with
      | fault g =>
          rw [← hfault g m' hstep, halike.ending]
          exact .faulted hframes hrun
      | outOfFuel => exact ((Action.step_ensures hm).ne_outOfFuel hstep).elim

/-- A run leads to the end that the unbroken execution comes to, if what
follows it does. -/
theorem of_run {rest : Machine → Option Ending}
    (hrest : ∀ {m n}, m.Confined raises → m.Alike n →
      rest m = some e → Unbroken n e)
    (fuel : Nat) (hm : m.Confined raises) (h : m.Alike n)
    (hend : Machine.goOn rest (Action.advance fuel .run m) = some e) :
    Unbroken n e := by
  induction fuel generalizing m n with
  | zero =>
      -- out of fuel, the run is broken off by a request to halt
      exact hrest (hm.of_alike m.requestHalt_alike.symm)
        (m.requestHalt_alike.trans h) hend
  | succ fuel ih =>
      rw [Action.advance_run_succ] at hend
      refine of_step (Action.advance fuel) hm h ?_ ?_
      · intro progress m' n' hstep h'
        have hm' := ((Action.step_ensures hm).of_ok hstep).confined raises hm
        rw [hstep] at hend
        cases progress with
        | running => exact ih hm' h' hend
        | halted reason =>
            cases reason with
            | completed =>
                obtain rfl := Option.some.inj hend
                have hempty := Action.isEmpty_of_step_completed hstep
                rw [h'.calls] at hempty
                rw [h'.ending]
                exact .completed hempty
            | haltRequested =>
                -- a halt that was asked for is withdrawn, and the run goes
                -- on
                have hcleared := hm'.of_alike m'.clearHalt_alike.symm
                exact hrest hcleared (m'.clearHalt_alike.trans h') hend
      · intro g m' hstep
        rw [hstep] at hend
        exact Option.some.inj hend

/-- However often a machine is asked to halt, it comes to the end of the
unbroken execution. -/
theorem of_resumed (gaps : List Nat) (hm : m.Confined raises) (h : m.Alike n)
    (hend : m.resumed gaps = some e) : Unbroken n e := by
  induction gaps generalizing m n with
  | nil => cases hend
  | cons fuel gaps ih =>
      exact of_run (fun hm' h' hend' => ih hm' h' hend') fuel hm h hend

end Unbroken

-- =============================================================== starts

namespace Action

variable {m₁ m₂ : Machine}

/-- Both sides have the same room for a frame. -/
theorem agree_hostPushFrame (h : m₁.Alike m₂) (f : Frame) :
    Agree Eq m₁ m₂ (hostPushFrame f) (hostPushFrame f) := by
  refine .bind (agree_onCalls h _) fun _ m₁' m₂' _ h => ?_
  exact ⟨rfl, ((m₁'.status_alike _).trans h).trans (m₂'.status_alike _).symm⟩

/-- Both sides enter the same program. -/
theorem agree_enter (h : m₁.Alike m₂) : Agree Eq m₁ m₂ enter enter := by
  have hcleared : Machine.Alike
      { m₁ with
        program := m₂.program
        operands := m₁.operands.clear
        calls := m₁.calls.clear
        haltRequested := false }
      { m₂ with
        operands := m₂.operands.clear
        calls := m₂.calls.clear
        haltRequested := false } :=
    ⟨rfl, congrArg Stack.clear h.operands, congrArg Stack.clear h.calls,
      h.handlers, h.output, h.keeps, h.dispatched⟩
  have hpush := agree_hostPushFrame hcleared (Frame.new m₂.program.entry
    m₂.program.entryFunction.entry m₂.program.entryFunction.params
    m₂.program.entryFunction.locals none)
  unfold Agree enter
  simp only [h.program]
  rcases hpush.outcomes with ⟨_, _, m₁', m₂', h₁, h₂, -, hm⟩
    | ⟨stop, m₁', m₂', h₁, h₂, hm⟩
  · rw [h₁, h₂]
    exact ⟨trivial, hm.observe _⟩
  · rw [h₁, h₂]
    cases stop with
    | fault g =>
        have hnoted :=
          ((m₁'.status_alike .faulted).trans hm).trans
            (m₂'.status_alike .faulted).symm
        exact ⟨rfl, hnoted.observe _⟩
    | outOfFuel => exact ⟨rfl, hm⟩

end Action

namespace Machine

/-- At which instructions an observer asks for a halt is not part of what
makes machines alike. -/
theorem watched_alike (m : Machine) (sink₁ sink₂ : Nat → Bool) :
    (m.watched sink₁).Alike (m.watched sink₂) :=
  ⟨rfl, rfl, rfl, rfl, rfl, rfl, rfl⟩

/-- An execution that comes to an end does so at its start, for want of room,
or where the unbroken one does. -/
theorem executed_cases {raises : Fault → Prop} {m : Machine} {s : Schedule}
    {e : Ending} (hm : m.Confined raises) (h : m.executed s = some e) :
    (∃ m', Action.enter (m.watched s.sink) = .ok () m' ∧ ∀ n, m'.Alike n →
      Unbroken n e)
      ∨ ∃ g m', Action.enter (m.watched s.sink) = .error (.fault g) m'
          ∧ m'.ending (some g) = e := by
  have hm' : (m.watched s.sink).Confined raises := hm
  have hplaced := Action.enter_placed ⟨rfl, hm'⟩
  unfold executed at h
  cases hgaps : s.gaps with
  | nil =>
      rw [hgaps] at h
      cases h
  | cons fuel gaps =>
      rw [hgaps] at h
      simp only [Action.advance_start_succ] at h
      cases henter : Action.enter (m.watched s.sink) with
      | ok _ m' =>
          rw [henter] at h
          have hconfined := (hplaced.of_ok henter).confined
          exact .inl ⟨m', rfl, fun n hn =>
            Unbroken.of_run (fun hm₁ h₁ hend => .of_resumed gaps hm₁ h₁ hend)
              fuel hconfined hn h⟩
      | error stop m' =>
          rw [henter] at h
          cases stop with
          | fault g => exact .inr ⟨g, m', rfl, Option.some.inj h⟩
          | outOfFuel => exact (hplaced.ne_outOfFuel henter).elim

/-- When a machine is asked to halt makes no difference to its execution, as
long as it is resumed after each halt: if it comes to an end under two
schedules, it has dispatched the same instructions under both, and ends with
the same fault or without one, with the same values, the same frames and the
same text written. -/
theorem executed_eq {raises : Fault → Prop} {m : Machine}
    (hm : m.Confined raises) {s₁ s₂ : Schedule} {e₁ e₂ : Ending}
    (h₁ : m.executed s₁ = some e₁) (h₂ : m.executed s₂ = some e₂) :
    e₁ = e₂ := by
  have henter := Action.agree_enter (m.watched_alike s₁.sink s₂.sink)
  unfold Action.Agree at henter
  rcases executed_cases hm h₁ with ⟨m₁, hrun₁, hend₁⟩ | ⟨g₁, m₁, hrun₁, rfl⟩
  · rcases executed_cases hm h₂ with ⟨m₂, hrun₂, hend₂⟩ | ⟨g₂, m₂, hrun₂, rfl⟩
    · rw [hrun₁, hrun₂] at henter
      exact (hend₁ m₁ (.refl m₁)).unique (hend₂ m₁ henter.2.symm)
    · rw [hrun₁, hrun₂] at henter
      exact henter.elim
  · rcases executed_cases hm h₂ with ⟨m₂, hrun₂, hend₂⟩ | ⟨g₂, m₂, hrun₂, rfl⟩
    · rw [hrun₁, hrun₂] at henter
      exact henter.elim
    · rw [hrun₁, hrun₂] at henter
      obtain ⟨hstop, halike⟩ := henter
      cases hstop
      exact halike.ending _

/-- Prints, halts, calls a function, and adds what is not there. -/
def pausing : Program where
  constants := #[.bool true]
  code :=
    #[{ opcode := .pushConst }, { opcode := .syscall, operand := 1 },
      { opcode := .halt },
        { opcode := .call, operand := 1 }, { opcode := .add },
        { opcode := .nop }, { opcode := .ret }]
  functions := #[⟨"main", 0, 0, 0⟩, ⟨"g", 5, 0, 0⟩]
  entry := 0
  entry_lt := Nat.zero_lt_two

def pausingMachine : Machine :=
  (Machine.new pausing).register printId (.print none)

/-- No halts but the program's own. -/
def undisturbed : Schedule := { sink := fun _ => false, gaps := [9, 9] }

/-- A halt at every instruction, and two requests of the host before the
second one. -/
def disturbed : Schedule :=
  { sink := fun _ => true, gaps := [1, 0, 0, 1, 1, 1, 1, 1, 1, 1, 1, 1] }

/-- Both schedules end with the same fault after the same seven
instructions. -/
theorem pausing_executed_eq : ∃ e, pausingMachine.executed undisturbed = some e
    ∧ pausingMachine.executed disturbed = some e
    ∧ e.fault = some ⟨4, .stackUnderflow⟩
    ∧ e.dispatched.length = 7 := by
  have hm : pausingMachine.Confined fun _ => False := by
    intro entry hmem
    obtain rfl := List.mem_singleton.mp hmem
    trivial
  have hundisturbed : (pausingMachine.executed undisturbed).map
      (fun e => (e.fault, e.dispatched.length))
        = some (some ⟨4, .stackUnderflow⟩, 7) := by
    decide +kernel
  have hdisturbed : (pausingMachine.executed disturbed).isSome := by
    decide +kernel
  obtain ⟨e₁, h₁, he⟩ := Option.map_eq_some_iff.mp hundisturbed
  obtain ⟨e₂, h₂⟩ := Option.isSome_iff_exists.mp hdisturbed
  obtain rfl := executed_eq hm h₁ h₂
  simp only [Prod.mk.injEq] at he
  exact ⟨e₁, h₁, h₂, he⟩

end Machine

end StackMachine
