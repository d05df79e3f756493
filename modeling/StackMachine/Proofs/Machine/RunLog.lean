/-
The log of a run from the entry. It opens with the start and closes with how
the run ended, and between the two it tells what the machine did, event by
event, as it was at the time: how many operands there were when an instruction
was dispatched, and how many frames there were after a call or a return. The
frames can also be counted in the log alone, since each call adds one to the
entry frame and each return takes one away.

The invariant is about a machine on the way and its log so far (`Logged`). One
step adds what it reports (`Reported`), and that is enough to go on from; the
step that ends the run adds the last event.
-/
import StackMachine.Proofs.Machine.Log
import StackMachine.Proofs.Machine.Resumption

namespace StackMachine

-- ================================================================ depths

/-- The number of frames that the calls and returns in a log come to, the
entry frame included. -/
def netDepth (es : List Event) : Int :=
  1 + es.countP Event.isCall - es.countP Event.isReturn

/-- A log counts on from where the one before it ended; each by itself starts
at one frame, which is counted once. -/
theorem netDepth_append (es es' : List Event) :
    netDepth (es ++ es') = netDepth es + netDepth es' - 1 := by
  unfold netDepth
  rw [List.countP_append, List.countP_append]
  omega

/-- What an instruction adds to the log comes to the frames that it adds to
the call stack. -/
theorem Action.Trail.netDepth {i : Instruction} {site depth left : Nat}
    {es : List Event} (h : Trail i site depth es left) :
    netDepth es = 1 + left - depth := by
  cases h with
  | silent => simp [StackMachine.netDepth]
  | syscall => simp [StackMachine.netDepth, Event.isCall, Event.isReturn]
  | called =>
      simp [StackMachine.netDepth, Event.isCall, Event.isReturn]
      omega
  | returned _ hleft =>
      simp [StackMachine.netDepth, Event.isCall, Event.isReturn]
      omega

/-- What a step reports counts the frames that it adds and takes off. -/
theorem Action.Reported.netDepth {m : Machine} {es : List Event} {left : Nat}
    (h : Reported m es left) : netDepth es = 1 + left - m.calls.size := by
  cases h with
  | idle => simp [StackMachine.netDepth]
  | ranOff _ _ hleft =>
      simp [StackMachine.netDepth, Event.isCall, Event.isReturn]
      omega
  | executed _ _ htrail => exact htrail.netDepth

/-- Nothing that a step reports is a start or an end of the run. -/
theorem Action.Reported.isInner {m : Machine} {es : List Event} {left : Nat}
    (h : Reported m es left) : ∀ e ∈ es, e.isInner := by
  cases h with
  | idle => simp
  | ranOff => simp [Event.isInner]
  | executed _ _ htrail => cases htrail <;> simp [Event.isInner]

namespace Machine

variable {raises : Fault → Prop} {b m₁ m₂ : Machine} {log es : List Event}
  {e : Event}

-- ========================================================= what is told

/-- The machine stood at this instruction when it had reported what came
before. -/
def Dispatched (b : Machine) (before : List Event) (index : Nat)
    (i : Instruction) (n : Nat) : Prop :=
  ∃ m₁ f, b.Reaches m₁ ∧ m₁.events = before ∧ m₁.calls.top? = some f
    ∧ f.ip = index
    ∧ m₁.program.code[index]? = some i ∧ m₁.operands.size = n

/-- The step that reported the event, after what came before, left so many
frames. -/
def LeftFrames (b : Machine) (before : List Event) (e : Event)
    (depth : Nat) : Prop :=
  ∃ m₁ reenter, b.Reaches m₁ ∧ m₁.events <+: before
    ∧ before ++ [e] <+: ((Action.step reenter).leaves m₁).events
    ∧ ((Action.step reenter).leaves m₁).calls.size = depth

/-- The event tells what was the case. -/
structure Tells (b : Machine) (before : List Event) (e : Event) : Prop where
  instruction : ∀ index i n, e = .instruction index i n →
    b.Dispatched before index i n
  depth : ∀ depth, e.depth? = some depth →
    depth = netDepth (before ++ [e]) ∧ b.LeftFrames before e depth

/-- Every event of the log tells what was the case. -/
def Truthful (b : Machine) (log : List Event) : Prop :=
  ∀ before e after, log = before ++ e :: after → b.Tells before e

/-- Where nothing is told, nothing is untrue. -/
theorem truthful_nil : b.Truthful [] := by
  intro before e after hsplit
  simp at hsplit

/-- A log stays truthful by an event that tells the truth. -/
theorem Truthful.append (h : b.Truthful log) (he : b.Tells log e) :
    b.Truthful (log ++ [e]) := by
  intro before e' after hsplit
  rcases List.eq_nil_or_concat after with rfl | ⟨after, last, rfl⟩
  · obtain ⟨rfl, hlast⟩ := List.append_inj' hsplit rfl
    obtain rfl := List.singleton_inj.mp hlast
    exact he
  · rw [List.concat_eq_append, ← List.cons_append,
      ← List.append_assoc] at hsplit
    exact h before e' after (List.append_inj' hsplit rfl).1

/-- Events that name neither an instruction nor a depth tell nothing. -/
theorem Tells.of_plain (hinstruction : e.isInstruction = false)
    (hdepth : e.depth? = none) :
    b.Tells log e := by
  refine ⟨fun index i n he => ?_, fun depth he => ?_⟩
  · rw [he] at hinstruction
    cases hinstruction
  · rw [hdepth] at he
    cases he

/-- Events that are neither instructions nor about depths tell nothing that
could be untrue. -/
theorem Truthful.append_plain (h : b.Truthful log)
    (hplain : ∀ e ∈ es, e.isInstruction = false ∧ e.depth? = none) :
    b.Truthful (log ++ es) := by
  induction es generalizing log with
  | nil =>
      rw [List.append_nil]
      exact h
  | cons e es ih =>
      have he := hplain e List.mem_cons_self
      rw [List.append_cons]
      exact ih (h.append (.of_plain he.1 he.2))
        fun e' he' => hplain e' (List.mem_cons_of_mem e he')

/-- An instruction tells the truth if it was dispatched so. -/
theorem Tells.of_dispatched {index : Nat} {i : Instruction} {n : Nat}
    (h : b.Dispatched log index i n) :
    b.Tells log (.instruction index i n) := by
  refine ⟨fun _ _ _ he => ?_, fun depth he => by cases he⟩
  injection he with hindex hi hn
  rw [← hindex, ← hi, ← hn]
  exact h

/-- A call or a return tells the truth if the depth it reports is counted and
left behind. -/
theorem Tells.of_depth {depth : Nat} (hinstruction : e.isInstruction = false)
    (hdepth : e.depth? = some depth) (hnet : depth = netDepth (log ++ [e]))
    (hleft : b.LeftFrames log e depth) : b.Tells log e := by
  refine ⟨fun index i n he => ?_, fun depth' he => ?_⟩
  · rw [he] at hinstruction
    cases hinstruction
  · obtain rfl := Option.some.inj (hdepth.symm.trans he)
    exact ⟨hnet, hleft⟩

-- ============================================================= one step

/-- The log opens with the start of a run from `b` and closes with these
events, it has none of their kind between, and it is truthful. -/
structure Told (b : Machine) (last log : List Event) : Prop where
  parts : ∃ inner, log = .started b.program.entryFunction :: (inner ++ last)
    ∧ ∀ e ∈ inner, e.isInner
  truthful : b.Truthful log

/-- A machine on the way of a run from `b`, and its log so far. -/
structure Logged (raises : Fault → Prop) (b m₁ : Machine) : Prop where
  reaches : b.Reaches m₁
  confined : m₁.Confined raises
  keeps : m₁.observer.keeps = true
  depth : m₁.calls.size = netDepth m₁.events
  told : b.Told [] m₁.events

section Reported

variable {reenter : Reentry} {last : List Event} (h : Logged raises b m₁)
  (hreported : Action.Reported m₁ es m₂.calls.size)

include h hreported

/-- The frames that a step leaves can be counted in the log. -/
theorem Logged.depth_reported :
    m₂.calls.size = netDepth (m₁.events ++ es) := by
  have hdepth := h.depth
  have hadded := hreported.netDepth
  rw [netDepth_append]
  omega

variable (hleaves : (Action.step reenter).leaves m₁ = m₂)
  (hwrote : m₁.Wrote (es ++ last) m₂)

include hleaves hwrote

/-- A call or a return is the last thing that a step reports of what it
did. -/
theorem Logged.tells_depth {before : List Event} (hsplit : es = before ++ [e])
    (hinstruction : e.isInstruction = false)
    (hdepth : e.depth? = some m₂.calls.size) :
    b.Tells (m₁.events ++ before) e := by
  refine .of_depth hinstruction hdepth ?_ ?_
  · rw [List.append_assoc, ← hsplit]
    exact h.depth_reported hreported
  · refine ⟨m₁, reenter, h.reaches, List.prefix_append _ _, ⟨last, ?_⟩, ?_⟩
    · rw [hleaves, hwrote.events, hsplit]
      simp only [List.append_assoc]
    · rw [hleaves]

/-- What a step reports is the truth. -/
theorem Logged.truthful_reported : b.Truthful (m₁.events ++ es) := by
  have htells : ∀ before e, es = before ++ [e] → e.isInstruction = false →
      e.depth? = some m₂.calls.size → b.Tells (m₁.events ++ before) e :=
    fun _ _ => h.tells_depth hreported hleaves hwrote
  generalize m₂.calls.size = left at hreported htells
  cases hreported with
  | idle =>
      rw [List.append_nil]
      exact h.told.truthful
  | ranOff =>
      have hreturned := htells [] _ rfl rfl rfl
      rw [List.append_nil] at hreturned
      exact h.told.truthful.append hreturned
  | @executed f i trail _ htop hi htrail =>
      -- the instruction was fetched where the machine stood
      have hdispatched :
          b.Truthful (m₁.events ++ [.instruction f.ip i m₁.operands.size]) :=
        h.told.truthful.append
          (.of_dispatched ⟨m₁, f, h.reaches, rfl, htop, rfl, hi, rfl⟩)
      rw [← List.singleton_append, ← List.append_assoc]
      cases htrail with
      | silent =>
          rw [List.append_nil]
          exact hdispatched
      | syscall => exact hdispatched.append (.of_plain rfl rfl)
      | called => exact hdispatched.append (htells [_] _ rfl rfl rfl)
      | returned => exact hdispatched.append (htells [_] _ rfl rfl rfl)

/-- A step adds what it did to the log, and then how it ended the run, if it
did. -/
theorem Logged.told_reported
    (hlast : ∀ e ∈ last, e.isInstruction = false ∧ e.depth? = none) :
    b.Told last m₂.events := by
  obtain ⟨inner, hevents, hinner⟩ := h.told.parts
  rw [hwrote.events]
  refine ⟨⟨inner ++ es, ?_, fun e he => ?_⟩, ?_⟩
  · rw [hevents]
    simp only [List.append_nil, List.cons_append, List.append_assoc]
  · rcases List.mem_append.mp he with hold | hnew
    · exact hinner e hold
    · exact hreported.isInner e hnew
  · rw [← List.append_assoc]
    exact (h.truthful_reported hreported hleaves hwrote).append_plain hlast

end Reported

/-- A step that goes on keeps the log truthful and complete; this is what a
run repeats. -/
theorem Logged.stepped {reenter : Reentry} (h : Logged raises b m₁)
    (hstep : Action.step reenter m₁ = .ok .running m₂) :
    Logged raises b m₂ := by
  obtain ⟨es, hreported, hwrote⟩ :=
    (Action.step_log h.confined h.keeps).of_ok hstep
  have hturned := (Action.step_ensures h.confined).of_ok hstep
  refine ⟨h.reaches.stepped hstep, hturned.confined raises h.confined,
    hwrote.keeps, ?_, ?_⟩
  · rw [hwrote.events, Progress.report, List.append_nil]
    exact h.depth_reported hreported
  · exact h.told_reported hreported (Action.leaves_of_ok hstep)
      hwrote (by simp)

/-- A call that faults has been dispatched and was not made. -/
theorem Logged.call_fault {reenter : Reentry} {f : Frame} {i : Instruction}
    {g : Fault} (h : Logged raises b m₁) (htop : m₁.calls.top? = some f)
    (hi : m₁.program.code[f.ip]? = some i) (hop : i.opcode = .call)
    (hstep : Action.step reenter m₁ = .error (.fault g) m₂) :
    m₂.events
      = m₁.events ++ [.instruction f.ip i m₁.operands.size, .faulted g] := by
  obtain ⟨hhalt, es, hreported, hdepth, hwrote⟩ :=
    (Action.step_log h.confined h.keeps).of_fault hstep
  rw [hwrote.events]
  generalize m₂.calls.size = left at hreported
  cases hreported with
  | idle hidle => exact absurd (hidle f i htop hi) hhalt
  | ranOff => simp [Event.depth?] at hdepth
  | @executed f' i' trail _ htop' hi' htrail =>
      obtain rfl : f = f' := Option.some.inj (htop.symm.trans htop')
      obtain rfl : i = i' := Option.some.inj (hi.symm.trans hi')
      cases htrail with
      | silent => rfl
      | syscall hsyscall =>
          rw [hop] at hsyscall
          cases hsyscall
      | called => simp [Event.depth?] at hdepth
      | returned => simp [Event.depth?] at hdepth

-- ================================================================= runs

/-- The log that the outcome of a run from `b` comes with. -/
inductive OutcomeTold
    (b : Machine) : EStateM.Result Stop Machine Progress → Prop
  | halted {reason : HaltReason} {m' : Machine}
      (h : b.Told [.halted reason] m'.events) :
    OutcomeTold b (.ok (.halted reason) m')
  | faulted {g : Fault} {m' : Machine} (h : b.Told [.faulted g] m'.events) :
    OutcomeTold b (.error (.fault g) m')
  /-- A run that is cut short has no end. -/
  | cut {m' : Machine} (h : b.Told [] m'.events) :
    OutcomeTold b (.error .outOfFuel m')

/-- By induction on the fuel, a run from a logged machine ends with its
outcome told. -/
theorem Logged.run (h : Logged raises b m₁) (fuel : Nat) :
    b.OutcomeTold (Action.advance fuel .run m₁) := by
  induction fuel generalizing m₁ with
  | zero => exact .cut h.told
  | succ fuel ih =>
      have hlog :=
        @Action.step_log raises (Action.advance fuel) m₁ h.confined h.keeps
      rw [Action.advance_run_succ]
      cases hstep : Action.step (Action.advance fuel) m₁ with
      | ok progress m₂ =>
          cases progress with
          | running => exact ih (h.stepped hstep)
          | halted reason =>
              obtain ⟨es, hreported, hwrote⟩ := hlog.of_ok hstep
              exact .halted
                (h.told_reported hreported (Action.leaves_of_ok hstep) hwrote
                  (by simp [Event.isInstruction, Event.depth?]))
      | error stop m₂ =>
          cases stop with
          | fault g =>
              obtain ⟨-, es, hreported, -, hwrote⟩ := hlog.of_fault hstep
              exact .faulted
                (h.told_reported hreported (Action.leaves_of_error hstep)
                  hwrote (by simp [Event.isInstruction, Event.depth?]))
          -- a step by itself needs no fuel: the hosts are confined
          | outOfFuel => exact absurd hstep hlog.ne_outOfFuel

section Entry

variable {m : Machine} (hm : m.Confined raises) (sink : Nat → Bool)

include hm

/-- Entering reports the start, with one frame on the call stack. -/
theorem logged_enter {m₁ : Machine}
    (henter : Action.enter (m.watched sink) = .ok () m₁) :
    Logged raises (m.watched sink) m₁ := by
  have hreaches : (m.watched sink).Reaches m₁ := .entered henter
  by_cases hroom : 0 < (m.watched sink).calls.limit
  · rw [Action.enter_eq_ok hroom] at henter
    injection henter with _ hm₁
    subst hm₁
    refine ⟨hreaches, hm, rfl, rfl, ⟨⟨[], rfl, by simp⟩, ?_⟩⟩
    exact truthful_nil.append (.of_plain rfl rfl)
  · rw [Action.enter_eq_error hroom] at henter
    cases henter

/-- Every machine that a run comes to has its log. -/
theorem Reaches.logged (h : (m.watched sink).Reaches m₁) :
    Logged raises (m.watched sink) m₁ := by
  induction h with
  | entered henter => exact logged_enter hm sink henter
  | stepped _ hstep ih => exact ih.stepped hstep

omit hm in
/-- Without room for the entry frame there is nothing to report but the
fault. -/
theorem start_without_room (hfull : ¬ 0 < m.calls.limit) (fuel : Nat) : ∃ g m',
    Action.advance (fuel + 1) .start (m.watched sink) = .error (.fault g) m'
      ∧ m'.events = [.faulted g] := by
  have hfull' : ¬ 0 < (m.watched sink).calls.limit := hfull
  have hrun := Action.advance_start_succ fuel (m.watched sink)
  rw [Action.enter_eq_error hfull'] at hrun
  exact ⟨_, _, hrun, rfl⟩

/-- A run from the entry comes with its log, unless there is no room for the
entry frame. -/
theorem start_told (hroom : 0 < m.calls.limit) (fuel : Nat) :
    (m.watched sink).OutcomeTold
      (Action.advance (fuel + 1) .start (m.watched sink)) := by
  rw [Action.advance_start_succ]
  cases henter : Action.enter (m.watched sink) with
  | ok _ m₁ => exact (logged_enter hm sink henter).run fuel
  | error stop m₁ =>
      have hroom' : 0 < (m.watched sink).calls.limit := hroom
      rw [Action.enter_eq_ok hroom'] at henter
      cases henter

/-- However far a run from the entry is followed, its log is truthful. -/
theorem start_truthful (fuel : Nat) :
    (m.watched sink).Truthful
      ((Action.advance fuel .start).leaves (m.watched sink)).events := by
  cases fuel with
  | zero => exact truthful_nil
  | succ fuel =>
      by_cases hroom : 0 < m.calls.limit
      · have htold := start_told hm sink hroom fuel
        unfold Action.leaves
        generalize Action.advance (fuel + 1) .start (m.watched sink)
          = outcome at htold ⊢
        cases htold with
        | halted h => exact h.truthful
        | faulted h => exact h.truthful
        | cut h => exact h.truthful
      · obtain ⟨g, m', hrun, hevents⟩ := start_without_room sink hroom fuel
        rw [Action.leaves_of_error hrun, hevents]
        exact truthful_nil.append (.of_plain rfl rfl)

end Entry

/-- The log of a run from the entry. Without room for the entry frame it holds
the fault alone. Otherwise it opens with the start of the entry function and
closes with how the run ended, as its outcome says, with none of these
between. Every instruction in it comes with the operands that there were when
it was dispatched; every call and return with the frames that it left, and
they can be counted in the log up to it. A call that faults is followed by its
fault and by nothing else. -/
theorem start_log {m : Machine} (hm : m.Confined raises) (sink : Nat → Bool)
    (fuel : Nat) :
    let b := m.watched sink
    (m.calls.limit = 0 → ∃ g m',
      Action.advance (fuel + 1) .start b = .error (.fault g) m'
        ∧ m'.events = [.faulted g])
    ∧ (0 < m.calls.limit → b.OutcomeTold (Action.advance (fuel + 1) .start b))
    ∧ ∀ m₁ f i, b.Reaches m₁ → m₁.calls.top? = some f →
        m₁.program.code[f.ip]? = some i →
        i.opcode = .call →
        ∀ reenter g m₂, Action.step reenter m₁ = .error (.fault g) m₂ →
          m₂.events = m₁.events
            ++ [.instruction f.ip i m₁.operands.size, .faulted g] := by
  intro b
  refine ⟨fun hlimit => start_without_room sink (by omega) fuel,
    fun hroom => start_told hm sink hroom fuel, ?_⟩
  intro m₁ f i hreach htop hi hop reenter g m₂ hstep
  exact (hreach.logged hm sink).call_fault htop hi hop hstep

/-- Calls a function that returns, and then one that there is not. -/
def stumbling : Program where
  constants := #[.int 7]
  code := #[{ opcode := .pushConst }, { opcode := .call, operand := 1 },
    { opcode := .call, operand := 9 }, { opcode := .ret }]
  functions := #[⟨"main", 0, 0, 0⟩, ⟨"back", 3, 0, 0⟩]
  entry := 0
  entry_lt := Nat.zero_lt_two

def stumblingLog : List Event :=
  [.started ⟨"main", 0, 0, 0⟩, .instruction 0 { opcode := .pushConst } 0,
    .instruction 1 { opcode := .call, operand := 1 } 1,
    .called 1 ⟨"back", 3, 0, 0⟩ 2, .instruction 3 { opcode := .ret } 1,
    .returned 3 1,
    .instruction 2 { opcode := .call, operand := 9 } 1,
    .faulted ⟨2, .invalidFunction 9 2⟩]

/-- The call that is made is in the log, and so is its return; the one that
faults leaves no more than its dispatch and its fault. -/
theorem stumbling_log : ∃ m',
    Action.advance (5 + 1) .start
        ((Machine.new stumbling).watched fun _ => false)
        = .error (.fault ⟨2, .invalidFunction 9 2⟩) m'
      ∧ m'.events = stumblingLog
      ∧ ((Machine.new stumbling).watched fun _ => false).Told
        [.faulted ⟨2, .invalidFunction 9 2⟩]
          m'.events := by
  have hconfined : (Machine.new stumbling).Confined fun _ => False := by
    intro entry hmem
    cases hmem
  have hrun : ((Action.advance (5 + 1) .start).fault?
      ((Machine.new stumbling).watched fun _ => false)).map
        (fun r => (r.1, r.2.events))
      = some (⟨2, .invalidFunction 9 2⟩, stumblingLog) := by decide +kernel
  obtain ⟨⟨g, m'⟩, hfault, hend⟩ := Option.map_eq_some_iff.mp hrun
  obtain ⟨rfl, hevents⟩ := Prod.mk.inj hend
  have hrun := Action.eq_error_of_fault? hfault
  have htold := (start_log hconfined (fun _ => false) 5).2.1 (by decide)
  rw [hrun] at htold
  cases htold with
  | faulted htold => exact ⟨m', hrun, hevents, htold⟩

end Machine

end StackMachine
