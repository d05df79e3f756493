/-
What one step reports. An observer that keeps events has a log of them; a step
adds at most three. An instruction that is dispatched comes first, with the
number of operands there were before it. A call, a return or a system call
follows if the instruction made one (`Trail`), and a halt or a fault if the
step ended the run. Running off the end of the code is a return without an
instruction.

Instructions report nothing themselves, and neither do confined hosts; a call
is reported when its frame is on the stack and not before, so a call that
faults leaves no trace but that of its dispatch.
-/
import StackMachine.Proofs.Machine.Placed
import StackMachine.Proofs.Machine.Simulation

namespace StackMachine

-- ================================================================ events

/-- The number of frames that an event reports. -/
def Event.depth? : Event → Option Nat
  | .called _ _ depth => some depth
  | .returned _ depth => some depth
  | _ => none

def Event.isCall : Event → Bool
  | .called .. => true
  | _ => false

def Event.isReturn : Event → Bool
  | .returned .. => true
  | _ => false

/-- Something that happens while a run goes on, neither its start nor its
end. -/
def Event.isInner : Event → Bool
  | .instruction .. | .called .. | .returned .. | .syscall .. => true
  | _ => false

/-- What is reported of how far a machine got. -/
def Progress.report : Progress → List Event
  | .running => []
  | .halted reason => [.halted reason]

namespace Machine

variable {m m₁ m₂ : Machine} {es es' : List Event}

/-- Events are kept, and from `m` to `m'` these were reported. -/
structure Wrote (m : Machine) (es : List Event) (m' : Machine) : Prop where
  keeps : m'.observer.keeps = true
  events : m'.events = m.events ++ es

/-- Nothing is written where the observer stays as it was. -/
theorem wrote_nil (hkeeps : m.observer.keeps = true)
    (h : m₁.observer = m.observer) :
    m.Wrote [] m₁ := by
  refine ⟨?_, ?_⟩
  · rw [h]
    exact hkeeps
  · unfold Machine.events
    rw [h, List.append_nil]

/-- An event that is reported is written, if events are kept. -/
theorem wrote_observe (hkeeps : m.observer.keeps = true) (e : Event) :
    m.Wrote [e] (m.observe e) := by
  cases e <;> exact ⟨hkeeps, by simp [Machine.events, Machine.observe, hkeeps]⟩

theorem Wrote.trans (h : m.Wrote es m₁) (h' : m₁.Wrote es' m₂) :
    m.Wrote (es ++ es') m₂ := by
  refine ⟨h'.keeps, ?_⟩
  rw [h'.events, h.events, List.append_assoc]

/-- Who has the same observer has the same log. -/
theorem Wrote.of_observer (h : m.Wrote es m₁)
    (hsame : m₂.observer = m₁.observer) :
    m.Wrote es m₂ := by
  obtain ⟨hkeeps, hevents⟩ := h
  unfold Machine.events at hevents
  rw [← hsame] at hkeeps hevents
  exact ⟨hkeeps, hevents⟩

theorem Wrote.observe (h : m.Wrote es m₁) (e : Event) :
    m.Wrote (es ++ [e]) (m₁.observe e) :=
  h.trans (wrote_observe h.keeps e)

/-- The first thing reported, perhaps after something else has changed. -/
theorem Wrote.then_observe (h : m.Wrote [] m₁)
    (hsame : m₂.observer = m₁.observer) (e : Event) :
    m.Wrote [e] (m₂.observe e) :=
  (h.of_observer hsame).observe e

end Machine

namespace Action

variable {α : Type} {raises : Fault → Prop} {reenter : Reentry} {m : Machine}
  {site : Nat} {f : Frame} {rest : Array Frame} {i : Instruction}

-- ========================================================= silent actions

/-- Operations on the operands are silent. -/
theorem observer_onOperands (op : StackOp Value α) :
    ((onOperands site op).leaves m).observer = m.observer := by
  unfold leaves onOperands
  cases op m.operands with
  | ok x operands => rfl
  | error e operands => rfl

/-- What an instruction does to the stacks is not reported. -/
theorem respects_observer (o : Observer) :
    Respects (Always fun m => m.observer = o) fun _ => False where
  program h := by rw [h.1]
  frames h := by rw [h.1]
  popOperand h _ := h.inStep fun _ hm => (observer_onOperands _).trans hm
  popOperands h _ _ := h.inStep fun _ hm => (observer_onOperands _).trans hm
  pushOperand h _ _ := h.inStep fun _ hm => (observer_onOperands _).trans hm
  setFrame h _ _ := by
    obtain ⟨rfl, hm⟩ := h
    exact ⟨rfl, hm⟩

/-- Apart from system calls, nothing is reported while an instruction
executes. -/
theorem observer_execute (hop : i.opcode ≠ .syscall) :
    ((execute reenter site i).leaves m).observer = m.observer :=
  ((respects_observer m.observer).execute ⟨rfl, rfl⟩ site i
    fun h => absurd h hop).leaves

/-- Nothing that a confined host asks for is reported by itself. -/
theorem observer_perform {r : Routine} (h : r.Confined raises) :
    ((perform reenter r).leaves m).observer = m.observer := by
  have hstep : InStep (Always fun m' => m'.observer = m.observer)
      (fun _ => False) Eq m m
      (perform reenter r) (perform reenter r) :=
    (respects_observer m.observer).perform
      (fun h => ⟨congrArg Machine.requestHalt h.1, h.2⟩)
      (fun h => ⟨congrArg Machine.clearHalt h.1, h.2⟩) h ⟨rfl, rfl⟩
  exact hstep.leaves

/-- Printing is silent, whether or not the device fails. -/
theorem observer_print (id : Int32) (device : Option Device) :
    ((print id device).leaves m).observer = m.observer := by
  have hstep : InStep (Always fun m' => m'.observer = m.observer)
      (fun _ => False) Eq m m
      (print id device) (print id device) :=
    (respects_observer m.observer).print
      (fun h _ => ⟨by rw [h.1], h.2⟩)
      (fun h _ _ => ⟨by rw [h.1], h.2⟩) ⟨rfl, rfl⟩ id device
  exact hstep.leaves

/-- A system call is reported, unless no handler has its number; what it does
is not. -/
theorem wrote_syscall (hm : m.Confined raises)
    (hkeeps : m.observer.keeps = true) (id : Int32) :
    m.Wrote [] ((syscall reenter site id).leaves m)
      ∨ m.Wrote [.syscall site id] ((syscall reenter site id).leaves m) := by
  have hobserved := Machine.wrote_observe hkeeps (.syscall site id)
  cases hfound : m.handler? id with
  | none =>
      rw [leaves_congr (syscall_unknown hfound)]
      exact .inl (Machine.wrote_nil hkeeps rfl)
  | some handler =>
      refine .inr ?_
      cases handler with
      | print device =>
          rw [leaves_congr (syscall_print hfound)]
          exact hobserved.trans
            (Machine.wrote_nil hobserved.keeps (observer_print id device))
      | routine calls count =>
          have hcalls : ∀ k, (calls k).Confined raises := hm.handler hfound
          have hregistered : m.Wrote [.syscall site id] (Machine.register
              (m.observe (.syscall site id)) id
              (.routine calls (count + 1))) :=
            hobserved.of_observer rfl
          rw [leaves_congr (syscall_routine hfound)]
          exact hregistered.trans
            (Machine.wrote_nil hregistered.keeps
              (observer_perform (hcalls count)))

-- ============================================================ transfers

/-- What follows the dispatch of an instruction in the log, for a call stack
of `depth` frames, and the number of frames that are left then. -/
inductive Trail (i : Instruction) (site depth : Nat) : List Event → Nat → Prop
  | silent : Trail i site depth [] depth
  | syscall (hop : i.opcode = .syscall) :
    Trail i site depth [.syscall site i.operand] depth
  | called (hop : i.opcode = .call) (g : Function) :
    Trail i site depth [.called site g (depth + 1)] (depth + 1)
  | returned (hop : i.opcode = .ret) {left : Nat} (hleft : depth = left + 1) :
    Trail i site depth [.returned site left] left

/-- The trail before the transfer, and of an instruction that faults: nothing
was called and nothing returned. -/
def Trail.Cut (i : Instruction) (site : Nat) (es : List Event) : Prop :=
  es = [] ∨ i.opcode = .syscall ∧ es = [.syscall site i.operand]

/-- A trail that was cut off is that of an instruction without a transfer. -/
theorem Trail.Cut.trail {es : List Event} (h : Cut i site es) (depth : Nat) :
    Trail i site depth es depth := by
  rcases h with rfl | ⟨hop, rfl⟩
  · exact .silent
  · exact .syscall hop

/-- Only a system call can have reported something before its transfer. -/
theorem Trail.Cut.eq_nil {es : List Event} {op : Opcode} (h : Cut i site es)
    (hop : i.opcode = op) (hne : op ≠ .syscall) : es = [] := by
  rcases h with rfl | ⟨hsyscall, -⟩
  · rfl
  · exact absurd (hop.symm.trans hsyscall) hne

theorem Trail.Cut.depth {es : List Event} (h : Cut i site es) :
    ∀ e ∈ es, e.depth? = none := by
  rcases h with rfl | ⟨-, rfl⟩
  · simp
  · simp [Event.depth?]

/-- Of all instructions only a system call is reported before its transfer. -/
theorem wrote_execute (hm : m.Confined raises)
    (hkeeps : m.observer.keeps = true) :
    ∃ es, Trail.Cut i site es
      ∧ m.Wrote es ((execute reenter site i).leaves m) := by
  by_cases hop : i.opcode = .syscall
  · have hleaves : (execute reenter site i).leaves m
        = (syscall reenter site i.operand).leaves m := by
      unfold execute leaves
      rw [hop]
      simp only [Bind.bind, EStateM.bind]
      cases syscall reenter site i.operand m with
      | ok x m' => rfl
      | error stop m' => rfl
    rw [hleaves]
    rcases wrote_syscall hm hkeeps i.operand with hnone | hsome
    · exact ⟨[], .inl rfl, hnone⟩
    · exact ⟨_, .inr ⟨hop, rfl⟩, hsome⟩
  · exact ⟨[], .inl rfl, Machine.wrote_nil hkeeps (observer_execute hop)⟩

/-- The instruction has left its trail. -/
def Trailed (m : Machine) (i : Instruction) (site : Nat)
    (m' : Machine) : Prop :=
  ∃ es, Trail i site m.calls.size es m'.calls.size ∧ m.Wrote es m'

/-- The instruction has faulted, with the trail that it had left by then. -/
def TrailCut (m : Machine) (i : Instruction) (site : Nat)
    (m' : Machine) : Prop :=
  m'.calls.size = m.calls.size ∧ ∃ es, Trail.Cut i site es ∧ m.Wrote es m'

/-- The transfer of an executed instruction leaves its trail. -/
theorem carryOut_trail {t : Transfer} {m₁ : Machine} {es : List Event}
    (htop : m.calls.items = rest.push f) (h : Executed m f i t m₁)
    (hcut : Trail.Cut i f.ip es) (hwrote : m.Wrote es m₁) :
    (carryOut f.ip m.calls.size t).Ensures m₁ (fun _ m' => Trailed m i f.ip m')
      (fun _ m' => TrailCut m i f.ip m') := by
  have hsize : m.calls.size = rest.size + 1 := by
    unfold Stack.size
    rw [htop, Array.size_push]
  -- a frame put in the place of the running one changes neither the
  -- log nor the depth
  have hreplaced : ∀ {m₁ : Machine} {g : Frame} (g' : Frame),
      m₁.calls.items = rest.push g →
      m.Wrote es m₁ →
      Trailed m i f.ip { m₁ with calls := m₁.calls.replaceTop g' } := by
    intro m₁ g g' htop₁ hwrote₁
    have hcount : (m₁.calls.replaceTop g').size = m.calls.size := by
      unfold Stack.size
      rw [replaceTop_items htop₁, htop, Array.size_push, Array.size_push]
    refine ⟨es, ?_, hwrote₁.of_observer rfl⟩
    show Trail i f.ip m.calls.size es (m₁.calls.replaceTop g').size
    rw [hcount]
    exact hcut.trail m.calls.size
  cases h with
  | next hflow hb =>
      exact .ok (carryOut_next (hb.frames htop) rfl hb.size)
        (hreplaced _ (hb.frames htop) hwrote)
  | @store m₁ locals hop hb _ =>
      have htop₁ := replaceTop_items (hb.frames htop) { f with locals }
      exact .ok (carryOut_stored htop hb locals) (hreplaced _ htop₁ hwrote)
  | jump hop hb =>
      by_cases hpos : 0 ≤ i.operand.toInt
      · exact .ok (carryOut_jump (hb.frames htop) hpos _)
          (hreplaced _ (hb.frames htop) hwrote)
      · -- a negative target is refused before a frame is touched
        show (if 0 ≤ i.operand.toInt then _ else _ : Action Unit).Ensures _ _ _
        rw [if_neg hpos]
        exact Ensures.get ⟨hb.size, es, hcut, hwrote⟩
  | @call m₁ n g args hop hb hg _ =>
      obtain rfl := hcut.eq_nil hop (by decide)
      have hcallee : m₁.program.functions[n]? = some g := by
        rw [hb.program]
        exact hg
      unfold Ensures
      by_cases hroom : m₁.calls.size < m₁.calls.limit
      · rw [carryOut_call_eq_ok (hb.frames htop) hroom]
        simp only [Frame.entered, hcallee]
        refine ⟨[.called f.ip g (m₁.calls.size + 1)], ?_, ?_⟩
        · show Trail i f.ip m.calls.size _ ((rest.push _).push _).size
          rw [Array.size_push, Array.size_push, ← hsize, hb.size]
          exact .called hop g
        · exact hwrote.then_observe (by rfl) _
      · -- the caller was moved on, but no frame came or went
        rw [carryOut_call_eq_error (hb.frames htop) hroom]
        refine ⟨?_, [], hcut, hwrote.of_observer rfl⟩
        exact (size_replaceTop (hb.frames htop) _).trans hb.size
  | @ret m₁ hop hb =>
      obtain rfl := hcut.eq_nil hop (by decide)
      refine .ok (carryOut_ret (hb.frames htop) _)
        ⟨[.returned f.ip rest.size], ?_, ?_⟩
      · exact .returned hop hsize
      · exact hwrote.then_observe (by rfl) _
  | halt hop hb =>
      obtain ⟨es, htrail, hwrote⟩ :=
        hreplaced { f with ip := f.ip + 1 } (hb.frames htop) hwrote
      exact .ok (carryOut_halt (hb.frames htop) _)
        ⟨es, htrail, hwrote.of_observer rfl⟩

-- ================================================================ steps

/-- An instruction leaves its trail: the execution writes the part before the
transfer, and the transfer the rest. -/
theorem dispatch_trail (hm : m.Confined raises)
    (hkeeps : m.observer.keeps = true) (htop : m.calls.items = rest.push f) :
    (dispatch reenter f.ip m.calls.size i).Ensures m
      (fun _ m' => Trailed m i f.ip m')
      (fun _ m' => TrailCut m i f.ip m') := by
  have hexecute : (execute reenter f.ip i).Ensures m
      (fun t m₁ => Executed m f i t m₁ ∧ ∃ es, Trail.Cut i f.ip es
        ∧ m.Wrote es m₁)
      (fun g m₁ => Failed raises m f i g m₁ ∧ ∃ es, Trail.Cut i f.ip es
        ∧ m.Wrote es m₁) :=
    (execute_ensures
      (fun _ => syscall_ensures fun _ hfound => hm.handler hfound)
      htop).and_leaves (wrote_execute hm hkeeps)
  refine Ensures.bind _ (hexecute.mono (fun _ _ he => he) ?_) ?_
  · intro g m' hfailed
    obtain ⟨⟨hb, -⟩, hcut⟩ := hfailed
    exact ⟨hb.size, hcut⟩
  · intro t m₁ hexecuted
    obtain ⟨he, es, hcut, hwrote⟩ := hexecuted
    exact Ensures.bind _ (carryOut_trail htop he hcut hwrote)
      fun _ _ htrail => htrail

/-- What one step reports before its end is noted, and the number of frames
that it leaves. -/
inductive Reported (m : Machine) : List Event → Nat → Prop
  /-- Nothing is dispatched under a request for a halt or outside the code. -/
  | idle
      (h : ∀ f i, m.calls.top? = some f → m.program.code[f.ip]? = some i →
        m.haltRequested) :
    Reported m [] m.calls.size
  /-- The end of the code is a return. -/
  | ranOff {f : Frame} {left : Nat} (htop : m.calls.top? = some f)
    (hend : f.ip = m.program.length) (hleft : m.calls.size = left + 1) :
    Reported m [.returned f.ip left] left
  | executed {f : Frame} {i : Instruction} {es : List Event} {left : Nat}
    (htop : m.calls.top? = some f) (hi : m.program.code[f.ip]? = some i)
    (htrail : Trail i f.ip m.calls.size es left) :
    Reported m (.instruction f.ip i m.operands.size :: es) left

/-- The step has made its report. -/
def Reports (m m' : Machine) : Prop :=
  ∃ es, Reported m es m'.calls.size ∧ m.Wrote es m'

/-- The step has faulted: nothing held it back, and it reported neither a call
nor a return. -/
def ReportsFault (m m' : Machine) : Prop :=
  ¬ m.haltRequested ∧
    ∃ es, Reported m es m'.calls.size ∧ (∀ e ∈ es, e.depth? = none)
      ∧ m.Wrote es m'

/-- An iteration reports the instruction it fetches, if it fetches one, and
then the trail of that. -/
theorem iterate_log (hm : m.Confined raises)
    (hkeeps : m.observer.keeps = true) :
    (iterate reenter).Ensures { m with status := .running }
      (fun _ m' => Reports m m')
      (fun _ m' => ReportsFault m m') := by
  have hcases := iterate_iteration reenter { m with status := .running }
  unfold Ensures
  generalize iterate reenter { m with status := .running }
    = outcome at hcases ⊢
  cases hcases with
  | halting hhalt =>
      exact ⟨[], .idle fun _ _ _ _ => hhalt, Machine.wrote_nil hkeeps rfl⟩
  | finished _ hempty =>
      refine ⟨[], .idle fun f _ hf _ => ?_, Machine.wrote_nil hkeeps rfl⟩
      have hnone : m.calls.top? = none := Array.back?_eq_none_iff.mpr hempty
      rw [hnone] at hf
      cases hf
  | @ranOff rest f _ htop hend =>
      have hsize : m.calls.size = rest.size + 1 := by
        unfold Stack.size
        rw [htop, Array.size_push]
      refine Ensures.bind (fun _ m' => Reports m m')
        (.ok (carryOut_ret htop _) ?_) fun _ _ h => h
      refine ⟨[.returned f.ip rest.size],
        .ranOff (Stack.top?_of_push htop) hend hsize, ?_⟩
      exact (Machine.wrote_nil hkeeps rfl).then_observe (by rfl) _
  | @astray rest f hhalt htop hip =>
      refine ⟨hhalt, [], .idle fun f' i hf hi => ?_,
        by simp, Machine.wrote_nil hkeeps rfl⟩
      -- the running frame is past the code, so it stands at no instruction
      obtain rfl : f = f' :=
        Option.some.inj ((Stack.top?_of_push htop).symm.trans hf)
      have hlt : f.ip < m.program.length :=
        (Array.getElem?_eq_some_iff.mp hi).1
      exact absurd hip (Nat.lt_asymm hlt)
  | @fetched rest f i hhalt htop hi =>
      have hwrote : m.Wrote [.instruction f.ip i m.operands.size]
          (Machine.observe { m with status := .running }
            (.instruction f.ip i m.operands.size)) :=
        (Machine.wrote_nil hkeeps rfl).then_observe (by rfl) _
      have hconfined : Machine.Confined raises
          (Machine.observe { m with status := .running }
            (.instruction f.ip i m.operands.size)) := hm
      refine Ensures.mono (dispatch_trail hconfined hwrote.keeps htop) ?_ ?_
      · -- what was reported before the fault is a trail that was cut off
        intro _ m' htrailed
        obtain ⟨es, htrail, hmore⟩ := htrailed
        exact ⟨_, .executed (Stack.top?_of_push htop) hi htrail,
          hwrote.trans hmore⟩
      · intro _ m' htrailed
        obtain ⟨hdepth, es, hcut, hmore⟩ := htrailed
        have htrail : Trail i f.ip m.calls.size es m'.calls.size := by
          rw [hdepth]
          exact hcut.trail m.calls.size
        refine ⟨hhalt, _, .executed (Stack.top?_of_push htop) hi htrail,
          fun e he => ?_, hwrote.trans hmore⟩
        rcases List.mem_cons.mp he with rfl | he
        · rfl
        · exact hcut.depth e he

/-- One step reports what it does, and last how it ended, if it ended the
run. -/
theorem step_log (hm : m.Confined raises) (hkeeps : m.observer.keeps = true) :
    (step reenter).Ensures m
      (fun progress m' => ∃ es, Reported m es m'.calls.size
        ∧ m.Wrote (es ++ progress.report) m')
      (fun g m' => ¬ m.haltRequested ∧ ∃ es, Reported m es m'.calls.size
        ∧ (∀ e ∈ es, e.depth? = none) ∧ m.Wrote (es ++ [.faulted g]) m') := by
  refine Ensures.step (iterate_log hm hkeeps) ?_ ?_ ?_
  · intro m' h
    obtain ⟨es, hreported, hwrote⟩ := h
    refine ⟨es, hreported, ?_⟩
    rw [Progress.report, List.append_nil]
    exact hwrote
  · intro r m' h
    obtain ⟨es, hreported, hwrote⟩ := h
    exact ⟨es, hreported,
      Machine.Wrote.observe (hwrote.of_observer (by rfl)) _⟩
  · intro g m' h
    obtain ⟨hhalt, es, hreported, hdepth, hwrote⟩ := h
    exact ⟨hhalt, es, hreported, hdepth,
      Machine.Wrote.observe (hwrote.of_observer (by rfl)) _⟩

end Action

end StackMachine
