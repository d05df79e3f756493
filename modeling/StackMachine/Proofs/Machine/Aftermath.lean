/-
What a fault leaves behind of a machine. Nothing is undone when an
instruction fails, so this depends on how far the instruction got; but it
never gets far. Until it faults, an instruction does no more than take
operands (`Spent`), and a call takes its arguments all or not at all. Only
where a call finds the call stack full has the calling frame been moved
before.

The places where an instruction can fail lie in `execute` and in carrying out
a jump or a call, and `Fell` tells the two ways of failing apart. All other
instructions are carried out without a fault, since the frame that executes
them is still the running one. A system call is another matter: there the
fault is what the host makes of it.
-/
import StackMachine.Proofs.Machine.Move

namespace StackMachine

/-- The one cause that a call is refused for after it has taken its
arguments. -/
def Cause.isDepth : Cause → Bool
  | .callDepthExceeded _ => true
  | _ => false

namespace Machine

/-- The instruction that the running frame stands at, if there is one, is no
system call. -/
def FetchesNoSyscall (m : Machine) : Prop :=
  ∀ f i, m.calls.top? = some f → m.program.code[f.ip]? = some i →
    i.opcode ≠ .syscall

-- ======================================================= taking operands

/-- `m'` is what is left of `m` once values were taken off its operands;
nothing is said about the call stack and about what watches the machine. -/
structure Shed (m m' : Machine) : Prop where
  operands : ∃ taken, m.operands.items = m'.operands.items ++ taken
  limit : m'.operands.limit = m.operands.limit
  haltRequested : m'.haltRequested = m.haltRequested
  program : m'.program = m.program
  handlers : m'.handlers = m.handlers
  output : m'.output = m.output

/-- The call stack is as before as well. -/
structure Spent (m m' : Machine) : Prop extends m.Shed m' where
  calls : m'.calls = m.calls

variable {m m₁ m₂ : Machine}

/-- A machine with the same operands has shed none of them. -/
theorem Shed.of_eq (hoperands : m₁.operands = m.operands)
    (hhalt : m₁.haltRequested = m.haltRequested)
    (hprogram : m₁.program = m.program) (hhandlers : m₁.handlers = m.handlers)
    (houtput : m₁.output = m.output) : m.Shed m₁ := by
  refine ⟨⟨#[], ?_⟩, ?_, hhalt, hprogram, hhandlers, houtput⟩
  · rw [hoperands, Array.append_empty]
  · rw [hoperands]

/-- What is shed at first lies on top of what is shed later. -/
theorem Shed.trans (h : m.Shed m₁) (h' : m₁.Shed m₂) : m.Shed m₂ := by
  obtain ⟨taken, htaken⟩ := h.operands
  obtain ⟨taken', htaken'⟩ := h'.operands
  refine ⟨⟨taken' ++ taken, ?_⟩, h'.limit.trans h.limit,
    h'.haltRequested.trans h.haltRequested, h'.program.trans h.program,
    h'.handlers.trans h.handlers, h'.output.trans h.output⟩
  rw [htaken, htaken', Array.append_assoc]

/-- An instruction is reported to an observer that asks for no halt. -/
theorem shed_fetch (hquiet : m.observer.haltsAt m.observer.seen = false)
    (index : Nat) (i : Instruction) (count : Nat) :
    m.Shed (Machine.observe { m with status := .running }
      (.instruction index i count)) := by
  refine .of_eq rfl ?_ rfl rfl rfl
  show (m.haltRequested || m.observer.haltsAt m.observer.seen)
    = m.haltRequested
  rw [hquiet, Bool.or_false]

/-- Noting a fault changes the status and reports it, no more. -/
theorem shed_noteFault (g : Fault) : m.Shed (Action.noteFault g m) :=
  .of_eq rfl rfl rfl rfl rfl

theorem Spent.refl (m : Machine) : m.Spent m :=
  ⟨.of_eq rfl rfl rfl rfl rfl, rfl⟩

/-- The values on top of the operands are taken, however many they are. -/
theorem Spent.take (h : m.Spent m₁) {items taken : Array Value}
    (htaken : m₁.operands.items = items ++ taken) :
    m.Spent { m₁ with operands := { m₁.operands with items } } :=
  ⟨h.toShed.trans ⟨⟨taken, htaken⟩, rfl, rfl, rfl, rfl, rfl⟩, h.calls⟩

/-- What a fault leaves of a machine whose running frame was `f`. -/
structure LeftBy (f : Frame) (g : Fault)
    (m m' : Machine) : Prop extends m.Shed m' where
  site : g.site = f.ip
  /-- A call that fails before it looks for room has taken nothing. -/
  called : ∀ i, m.program.code[f.ip]? = some i → i.opcode = .call →
    g.cause.isDepth = false →
    m'.operands = m.operands
  calls : g.cause.isDepth = false → m'.calls = m.calls
  moved : g.cause.isDepth →
    (∃ i, m.program.code[f.ip]? = some i ∧ i.opcode = .call) ∧
    m'.calls = m.calls.replaceTop { f with ip := f.ip + 1 }

end Machine

namespace Action

variable {reenter : Reentry} {m : Machine} {site : Nat} {f : Frame}
  {rest : Array Frame} {i : Instruction}

-- ======================================================== instructions

/-- A fault of the instruction at `site` that came while operands were
taken. -/
structure Dropped (m : Machine) (site : Nat) (g : Fault)
    (m' : Machine) : Prop where
  site : g.site = site
  cause : g.cause.isDepth = false
  spent : m.Spent m'

/-- How a fault of an instruction leaves the machine that was to execute
it. -/
inductive Fell (m : Machine) (f : Frame) (i : Instruction)
    (g : Fault) : Machine → Prop
  | dropped {m' : Machine} (h : Dropped m f.ip g m')
    (hcall : i.opcode = .call → m'.operands = m.operands) : Fell m f i g m'
  /-- The call stack was full. -/
  | full {m' : Machine} (hop : i.opcode = .call) (hsite : g.site = f.ip)
    (hdepth : g.cause.isDepth) (hs : m.Spent m') :
    Fell m f i g
      { m' with calls := m.calls.replaceTop { f with ip := f.ip + 1 } }

/-- Where a transfer may still fail, nothing has happened but that operands
were taken. -/
def Ready (m : Machine) : Transfer → Machine → Prop
  | .jump _, m' | .call _, m' => m.Spent m'
  | .next, _ | .ret, _ | .halt, _ => True

section Operands

variable {m₁ : Machine} (hs : m.Spent m₁)

include hs

/-- Taking a value spends it, or finds none and drops what was spent
before. -/
theorem popOperand_dropped :
    (popOperand site).Ensures m₁ (fun _ m' => m.Spent m')
      (Dropped m site) := by
  refine popOperand_ensures (fun v hv => ?_) fun _ => ⟨rfl, rfl, hs⟩
  obtain ⟨items, hitems⟩ := Array.back?_eq_some_iff.mp hv
  have htaken : m₁.operands.items = m₁.operands.items.pop ++ #[v] := by
    rw [hitems, Array.pop_push, Array.push_eq_append]
  exact hs.take htaken

/-- A push that finds no room drops what was spent before it. -/
theorem pushOperand_dropped (v : Value) :
    (pushOperand site v).Ensures m₁ (fun _ _ => True) (Dropped m site) :=
  pushOperand_ensures v trivial fun _ => ⟨rfl, rfl, hs⟩

theorem compute_dropped {α : Type} (result : Except ValueError α) :
    (compute site result).Ensures m₁ (fun _ m' => m.Spent m')
      (Dropped m site) :=
  compute_ensures (fun _ => hs) fun _ => ⟨rfl, rfl, hs⟩

end Operands

/-- A constant spends nothing. -/
theorem pushConstant_dropped :
    (pushConstant site i).Ensures m (Ready m) (Dropped m site) := by
  apply Ensures.get
  cases i.index?.bind (m.program.constants[·]?) with
  | none => exact ⟨rfl, rfl, .refl m⟩
  | some v =>
      exact Ensures.bind _ (pushOperand_dropped (.refl m) v)
        fun _ _ _ => trivial

/-- Two operands are taken, and what is computed from them is put in their
place. -/
theorem binary_dropped {α : Type}
    {result : Value → Value → Except ValueError α} {wrap : α → Value} :
    (do
      let b ← popOperand site
      let a ← popOperand site
      let x ← compute site (result a b)
      pushOperand site (wrap x)
      return Transfer.next).Ensures m (Ready m) (Dropped m site) := by
  refine Ensures.bind _ (popOperand_dropped (.refl m)) fun b m₁ h₁ => ?_
  refine Ensures.bind _ (popOperand_dropped h₁) fun a m₂ h₂ => ?_
  refine Ensures.bind _ (compute_dropped h₂ _) fun x m₃ h₃ => ?_
  exact Ensures.bind _ (pushOperand_dropped h₃ _) fun _ _ _ => trivial

/-- Nothing is spent by looking for a slot. -/
theorem slot_dropped :
    (slot site i).Ensures m (fun _ m' => m' = m) (Dropped m site) := by
  unfold slot
  cases i.index? with
  | some n => exact rfl
  | none => exact Ensures.get ⟨rfl, rfl, .refl m⟩

/-- What a frame refuses, other than for want of room for another frame, drops
what was spent. -/
theorem onFrame_dropped {α : Type} {m₁ : Machine} (hs : m.Spent m₁)
    {result : Except StackError α}
    (h : ∀ limit, result ≠ .error (.depthExceeded limit)) :
    (onFrame site result).Ensures m₁ (fun _ m' => m' = m₁)
      (Dropped m site) := by
  unfold Ensures onFrame
  cases result with
  | ok a => exact rfl
  | error e =>
      refine ⟨rfl, ?_, hs⟩
      cases e with
      | depthExceeded limit => exact absurd rfl (h limit)
      | underflow | overflow | noFrame | invalidSlot => rfl

/-- A slot that cannot be loaded leaves everything as it was. -/
theorem loadLocal_dropped (htop : m.calls.items = rest.push f) :
    (loadLocal site i).Ensures m (Ready m) (Dropped m site) := by
  refine Ensures.bind _ slot_dropped ?_
  rintro n m rfl
  refine Ensures.bind (fun g m' => g = f ∧ m' = m)
    (.ok (currentFrame_eq htop) ⟨rfl, rfl⟩) ?_
  rintro f m ⟨rfl, rfl⟩
  have hslot : ∀ limit, f.getLocal n ≠ .error (.depthExceeded limit) := by
    intro limit
    unfold Frame.getLocal
    cases f.locals[n]? <;> simp
  refine Ensures.bind (fun _ m' => m' = m) ?_ ?_
  · exact onFrame_dropped (.refl m) hslot
  · rintro v m rfl
    exact Ensures.bind _ (pushOperand_dropped (.refl m) v) fun _ _ _ => trivial

/-- A slot that cannot be stored to loses the value that was to be stored. -/
theorem storeLocal_dropped (htop : m.calls.items = rest.push f) :
    (storeLocal site i).Ensures m (Ready m) (Dropped m site) := by
  refine Ensures.bind _ slot_dropped ?_
  rintro n m rfl
  refine Ensures.bind _ (popOperand_dropped (.refl m)) fun v m₁ hs => ?_
  have htop₁ : m₁.calls.items = rest.push f := by
    rw [hs.calls]
    exact htop
  refine Ensures.bind (fun g m' => g = f ∧ m' = m₁)
    (.ok (currentFrame_eq htop₁) ⟨rfl, rfl⟩) ?_
  rintro f m₁ ⟨rfl, rfl⟩
  have hslot : ∀ limit, f.setLocal n v ≠ .error (.depthExceeded limit) := by
    intro limit
    unfold Frame.setLocal
    split <;> simp
  exact Ensures.bind _ (onFrame_dropped hs hslot) fun _ _ _ => trivial

/-- A condition that is no truth value is spent. -/
theorem jumpIfFalse_dropped (target : Int32) :
    (jumpIfFalse site target).Ensures m (Ready m) (Dropped m site) := by
  refine Ensures.bind _ (popOperand_dropped (.refl m)) fun v m₁ h₁ => ?_
  split
  · trivial
  · exact h₁
  · exact ⟨rfl, rfl, h₁⟩

/-- A call that faults before its transfer has taken no arguments. -/
theorem call_dropped :
    (call site i).Ensures m (Ready m)
      (fun g m' => Dropped m site g m' ∧ m'.operands = m.operands) := by
  apply Ensures.get
  cases i.index?.bind fun n => m.program.functions[n]?.map fun f => (n, f) with
  | none => exact ⟨⟨rfl, rfl, .refl m⟩, rfl⟩
  | some callee =>
      obtain ⟨n, g⟩ := callee
      refine Ensures.bind (fun args m' => args.size = g.params ∧ m.Spent m')
        (popOperands_ensures g.params (fun hn => ⟨?_, ?_⟩)
          ⟨⟨rfl, rfl, .refl m⟩, rfl⟩) ?_
      · rw [Array.size_extract]
        omega
      · have htaken : m.operands.items
            = m.operands.items.shrink (m.operands.items.size - g.params)
              ++ m.operands.items.extract
                (m.operands.items.size - g.params) := by
          simp
        exact (Machine.Spent.refl m).take htaken
      · rintro args m₁ ⟨hargs, hs⟩
        exact Ensures.bind (fun _ m' => m.Spent m')
          (.ok (onFrame_entering hargs _ _ _ m₁) hs) fun _ _ hs => hs

/-- Every instruction but a system call leaves its transfer a machine on which
it may fail, or has fallen. -/
theorem execute_fell (hsyscall : i.opcode ≠ .syscall)
    (htop : m.calls.items = rest.push f) :
    (execute reenter f.ip i).Ensures m (Ready m) (Fell m f i) := by
  have hother : ∀ {a : Action Transfer}, i.opcode ≠ .call →
      a.Ensures m (Ready m) (Dropped m f.ip) →
      a.Ensures m (Ready m) (Fell m f i) :=
    fun hne h => h.mono (fun _ _ hr => hr)
      fun _ _ hd => .dropped hd fun hop => absurd hop hne
  unfold execute
  cases hop : i.opcode with
  | nop => exact trivial
  | pushConst => exact hother (by simp [hop]) pushConstant_dropped
  | add | sub | mul | div => exact hother (by simp [hop]) binary_dropped
  | cmpLt => exact hother (by simp [hop]) binary_dropped
  | loadLocal => exact hother (by simp [hop]) (loadLocal_dropped htop)
  | storeLocal => exact hother (by simp [hop]) (storeLocal_dropped htop)
  | jump => exact Machine.Spent.refl m
  | jumpIfFalse => exact hother (by simp [hop]) (jumpIfFalse_dropped i.operand)
  -- only a call that faults is to leave all operands
  | call =>
      exact call_dropped.mono (fun _ _ hr => hr)
        fun _ _ hd => .dropped hd.1 fun _ => hd.2
  | ret => exact trivial
  | syscall => exact absurd hop hsyscall
  | halt => exact trivial
  | cmpEq | cmpNe | cmpLe | cmpGt | cmpGe | not | and | or =>
      exact hother (by simp [hop]) ⟨rfl, rfl, .refl m⟩

-- ============================================================ transfers

/-- Carrying out the transfer of an instruction that is no system call
succeeds, or leaves what the instruction leaves. -/
theorem carryOut_fell {t : Transfer} {m₁ : Machine}
    (htop : m.calls.items = rest.push f) (he : Executed m f i t m₁)
    (hr : Ready m t m₁) :
    (carryOut f.ip m.calls.size t).Ensures m₁ (fun _ _ => True)
      (Fell m f i) := by
  cases he with
  | next hflow hb =>
      exact .ok (carryOut_next (hb.frames htop) rfl hb.size) trivial
  | @store m₁ locals hop hb hsize =>
      exact .ok (carryOut_stored htop hb locals) trivial
  | jump hop hb =>
      have hs : m.Spent m₁ := hr
      by_cases hpos : 0 ≤ i.operand.toInt
      · exact .ok (carryOut_jump (hb.frames htop) hpos _) trivial
      · show (if 0 ≤ i.operand.toInt then _ else _ : Action Unit).Ensures _ _ _
        rw [if_neg hpos]
        -- the target is refused after the condition was taken
        refine Ensures.get (.dropped ⟨rfl, rfl, hs⟩ fun hcall => ?_)
        rw [hcall] at hop
        cases hop
  | call hop hb hg hargs =>
      have hs : m.Spent m₁ := hr
      by_cases hroom : m₁.calls.size < m₁.calls.limit
      · exact .ok (carryOut_call_eq_ok (hb.frames htop) hroom _ _) trivial
      · -- the caller has been moved when the call stack turns out to be full
        unfold Ensures
        rw [carryOut_call_eq_error (hb.frames htop) hroom]
        show Fell m f i _ { m₁ with calls := m₁.calls.replaceTop _ }
        rw [hb.calls]
        exact .full hop rfl rfl hs
  | ret hop hb => exact .ok (carryOut_ret (hb.frames htop) _) trivial
  | halt hop hb => exact .ok (carryOut_halt (hb.frames htop) _) trivial

-- ================================================================ steps

/-- An instruction that faults has dropped what it took or, as a call without
room, moved on. -/
theorem dispatch_fell (hsyscall : i.opcode ≠ .syscall)
    (htop : m.calls.items = rest.push f) :
    (dispatch reenter f.ip m.calls.size i).Ensures m (fun _ _ => True)
      (Fell m f i) := by
  have hexecuted : (execute reenter f.ip i).Ensures m (Executed m f i)
      (Failed (fun _ => True) m f i) :=
    execute_ensures (fun hop => absurd hop hsyscall) htop
  refine Ensures.bind _ ((hexecuted.and (execute_fell hsyscall htop)).mono
    (fun _ _ h => h) fun _ _ h => h.2) ?_
  rintro t m₁ ⟨he, hr⟩
  exact Ensures.bind _ (carryOut_fell htop he hr) fun _ _ _ => trivial

/-- What an instruction that fell leaves is what its step leaves: the fetch is
reported before it, and the fault behind it. -/
theorem Fell.leftBy {g : Fault} {m' : Machine}
    (hquiet : m.observer.haltsAt m.observer.seen = false)
    (hi : m.program.code[f.ip]? = some i)
    (h : Fell (Machine.observe { m with status := .running }
      (.instruction f.ip i m.operands.size)) f i g m') :
    m.LeftBy f g (noteFault g m') := by
  have hfetch := Machine.shed_fetch hquiet f.ip i m.operands.size
  cases h with
  | dropped hd hcall =>
      refine ⟨hfetch.trans (hd.spent.toShed.trans (Machine.shed_noteFault g)),
        hd.site, ?_, fun _ => hd.spent.calls,
        fun hdepth => absurd hdepth (ne_true_of_eq_false hd.cause)⟩
      intro i' hi' hop _
      obtain rfl : i = i' := Option.some.inj (hi.symm.trans hi')
      exact hcall hop
  | full hop hsite hdepth hs =>
      have hother : g.cause.isDepth ≠ false := ne_false_of_eq_true hdepth
      refine ⟨hfetch.trans (hs.toShed.trans ?_), hsite,
        fun _ _ _ hcause => absurd hcause hother,
        fun hcause => absurd hcause hother, fun _ => ⟨⟨i, hi, hop⟩, rfl⟩⟩
      exact .of_eq rfl rfl rfl rfl rfl

/-- A frame outside the code takes nothing from the machine. -/
theorem astray_leftBy {cause : Cause} (hcause : cause.isDepth = false)
    (hip : m.program.length < f.ip) :
    m.LeftBy f ⟨f.ip, cause⟩
      (noteFault ⟨f.ip, cause⟩ { m with status := .running }) := by
  refine ⟨.of_eq rfl rfl rfl rfl rfl, rfl, fun i hi => ?_, fun _ => rfl,
    fun hdepth => absurd hdepth (ne_true_of_eq_false hcause)⟩
  have hlt := (Array.getElem?_eq_some_iff.mp hi).1
  exact absurd hlt (by unfold Program.length at hip; omega)

/-- An iteration that faults leaves what its instruction leaves, since nothing
else in it can fault but a counter outside the code. -/
theorem iterate_leaves (hsyscall : m.FetchesNoSyscall)
    (hquiet : m.observer.haltsAt m.observer.seen = false) :
    (iterate reenter).Ensures { m with status := .running } (fun _ _ => True)
      fun g m' => ∃ f,
        m.calls.top? = some f ∧ m.LeftBy f g (noteFault g m') := by
  have hcases := iterate_iteration reenter { m with status := .running }
  unfold Ensures
  generalize iterate reenter { m with status := .running }
    = outcome at hcases ⊢
  cases hcases with
  | halting => trivial
  | finished => trivial
  | ranOff _ htop =>
      exact Ensures.bind (fun _ _ => True) (.ok (carryOut_ret htop _) trivial)
        fun _ _ _ => trivial
  | @astray rest f _ htop hip =>
      exact ⟨f, Stack.top?_of_push htop, astray_leftBy rfl hip⟩
  | @fetched rest f i _ htop hi =>
      have hf : m.calls.top? = some f := Stack.top?_of_push htop
      refine (dispatch_fell (m := Machine.observe { m with status := .running }
        (.instruction f.ip i m.operands.size)) (hsyscall f i hf hi) htop).mono
        (fun _ _ _ => trivial) ?_
      exact fun g m' hfell => ⟨f, hf, hfell.leftBy hquiet hi⟩

/-- A step that stops, with no system call fetched and an observer that asks
for no halt, names the instruction that the running frame stood at and leaves
a faulted machine: its halt flag is as before, its operands are those before
without some on top, and the call stack is as before unless a call found it
full, which leaves the calling frame behind its call. -/
theorem step_fault_leaves {stop : Stop} {m' : Machine}
    (hsyscall : m.FetchesNoSyscall)
    (hquiet : m.observer.haltsAt m.observer.seen = false)
    (h : step reenter m = .error stop m') :
    ∃ f g, m.calls.top? = some f ∧ stop = .fault g ∧ m'.status = .faulted
      ∧ m.LeftBy f g m' := by
  have hstep : (step reenter).Ensures m (fun _ _ => True)
      fun g m' => ∃ f, m.calls.top? = some f ∧ m'.status = .faulted
        ∧ m.LeftBy f g m' := by
    refine Ensures.step (iterate_leaves hsyscall hquiet) (fun _ _ => trivial)
      (fun _ _ _ => trivial) ?_
    rintro g m' ⟨f, hf, hleft⟩
    exact ⟨f, hf, rfl, hleft⟩
  cases stop with
  | fault g =>
      obtain ⟨f, hleft⟩ := hstep.of_fault h
      exact ⟨f, g, hleft.1, rfl, hleft.2⟩
  | outOfFuel => exact absurd h hstep.ne_outOfFuel

/-- Calls itself with one argument. -/
def selfCalling : Program where
  constants := #[]
  code := #[{ opcode := .call }]
  functions := #[⟨"main", 0, 1, 1⟩]
  entry := 0
  entry_lt := Nat.zero_lt_one

/-- Stands at the call with an argument to pass and no room for another
frame. -/
def crowded : Machine :=
  { Machine.new selfCalling with
    operands := ⟨2, #[.null, .bool true]⟩
    calls := ⟨1, #[⟨0, 0, none, #[.null]⟩]⟩ }

/-- The call has taken its argument and moved its frame when it finds no
room. -/
theorem crowded_leaves :
    ∃ m', step (advance 0) crowded
      = .error (.fault ⟨0, .callDepthExceeded 1⟩) m'
      ∧ m'.operands.items = #[.null]
      ∧ crowded.LeftBy ⟨0, 0, none, #[.null]⟩
        ⟨0, .callDepthExceeded 1⟩ m' := by
  have hsyscall : crowded.FetchesNoSyscall := by
    rintro f i hf hi
    cases hf
    cases hi
    decide
  obtain ⟨m', hrun, hoperands⟩ : ∃ m', step (advance 0) crowded
      = .error (.fault ⟨0, .callDepthExceeded 1⟩) m'
        ∧ m'.operands.items = #[.null] :=
    ⟨_, rfl, rfl⟩
  obtain ⟨f, g, hf, hstop, -, hleft⟩ := step_fault_leaves hsyscall rfl hrun
  cases hf
  cases hstop
  exact ⟨m', hrun, hoperands, hleft⟩

end Action

end StackMachine
