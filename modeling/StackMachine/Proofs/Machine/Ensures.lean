/-
What an action ensures. An action ends in an answer, in a fault or without
fuel, and leaves a machine in each case; `Ensures` says something about the
first two and excludes the third. It is the one judgement in which the parts
of a step are described: a rule for each way to put actions together, and one
for each of the small actions that touch a stack.

The machine is given, not quantified over, so what a rule promises may speak
of the machine before and after alike. The cases of an iteration are told
apart once, in `Iteration`, and a run is opened one step at a time.
-/
import StackMachine.Machine.Run

namespace StackMachine

theorem Stack.top?_of_push {α : Type} {s : Stack α} {rest : Array α} {x : α}
    (h : s.items = rest.push x) : s.top? = some x := by
  unfold Stack.top?
  rw [h, Array.back?_push]

namespace Action

variable {α β : Type} {m : Machine} {site : Nat}

-- ======================================================== the judgement

/-- From `m`, the action gives an answer or a fault of which the two
statements hold, and does not run out of fuel. -/
def Ensures (a : Action α) (m : Machine) (answer : α → Machine → Prop)
    (fault : Fault → Machine → Prop) : Prop :=
  match a m with
  | .ok x m' => answer x m'
  | .error (.fault f) m' => fault f m'
  | .error .outOfFuel _ => False

variable {answer : α → Machine → Prop} {fault : Fault → Machine → Prop}

theorem Ensures.of_ok {a : Action α} {x : α} {m' : Machine}
    (h : a.Ensures m answer fault) (hrun : a m = .ok x m') : answer x m' := by
  unfold Ensures at h
  rw [hrun] at h
  exact h

/-- What an action ensures of its faults holds of the one it stops with. -/
theorem Ensures.of_fault {a : Action α} {f : Fault} {m' : Machine}
    (h : a.Ensures m answer fault) (hrun : a m = .error (.fault f) m') :
    fault f m' := by
  unfold Ensures at h
  rw [hrun] at h
  exact h

/-- An action that ensures anything does not run out of fuel. -/
theorem Ensures.ne_outOfFuel {a : Action α} {m' : Machine}
    (h : a.Ensures m answer fault) :
    a m ≠ .error .outOfFuel m' := by
  intro hrun
  unfold Ensures at h
  rw [hrun] at h
  exact h

/-- An action that does not run out of fuel gives an answer or a fault. -/
theorem Ensures.outcome {a : Action α} (h : a.Ensures m answer fault) :
    (∃ x m', a m = .ok x m' ∧ answer x m')
      ∨ ∃ g m', a m = .error (.fault g) m' ∧ fault g m' := by
  unfold Ensures at h
  split at h
  · next hrun => exact .inl ⟨_, _, hrun, h⟩
  · next hrun => exact .inr ⟨_, _, hrun, h⟩
  · exact h.elim

/-- An action that cannot give an answer stops with a fault. -/
theorem Ensures.exists_fault {a : Action α}
    (h : a.Ensures m (fun _ _ => False) fault) :
    ∃ f m', a m = .error (.fault f) m' ∧ fault f m' := by
  rcases h.outcome with ⟨_, _, _, hfalse⟩ | hfault
  · exact hfalse.elim
  · exact hfault

theorem Ensures.ok {a : Action α} {x : α} {m' : Machine}
    (hrun : a m = .ok x m') (h : answer x m') : a.Ensures m answer fault := by
  unfold Ensures
  rw [hrun]
  exact h

/-- An action ensures whatever follows from what it ensures. -/
theorem Ensures.mono {a : Action α} {answer' : α → Machine → Prop}
    {fault' : Fault → Machine → Prop} (h : a.Ensures m answer fault)
    (hanswer : ∀ x m', answer x m' → answer' x m')
    (hfault : ∀ f m', fault f m' → fault' f m') :
    a.Ensures m answer' fault' := by
  unfold Ensures at h ⊢
  split at h
  · exact hanswer _ _ h
  · exact hfault _ _ h
  · exact h

/-- What an action ensures on two accounts, it ensures on both. -/
theorem Ensures.and {a : Action α} {answer' : α → Machine → Prop}
    {fault' : Fault → Machine → Prop} (h : a.Ensures m answer fault)
    (h' : a.Ensures m answer' fault') :
    a.Ensures m (fun x m => answer x m ∧ answer' x m)
      (fun g m => fault g m ∧ fault' g m) := by
  unfold Ensures at h h' ⊢
  split at h
  · next hrun =>
      rw [hrun] at h'
      exact ⟨h, h'⟩
  · next hrun =>
      rw [hrun] at h'
      exact ⟨h, h'⟩
  · exact h.elim

/-- The machine that an action leaves, however it ends. -/
def leaves (a : Action α) (m : Machine) : Machine :=
  match a m with
  | .ok _ m' | .error _ m' => m'

/-- An answer comes with the machine that the action leaves. -/
theorem leaves_of_ok {a : Action α} {x : α} {m' : Machine}
    (hrun : a m = .ok x m') :
    a.leaves m = m' := by
  unfold leaves
  rw [hrun]

theorem leaves_of_error {a : Action α} {stop : Stop} {m' : Machine}
    (hrun : a m = .error stop m') : a.leaves m = m' := by
  unfold leaves
  rw [hrun]

theorem leaves_congr {a b : Action α} {m' : Machine} (h : a m = b m') :
    a.leaves m = b.leaves m' := by
  unfold leaves
  rw [h]

/-- What is ensured whatever happens holds of the machine that is left. -/
theorem Ensures.leaves {a : Action α} {inv : Machine → Prop}
    (h : a.Ensures m (fun _ m' => inv m') (fun _ m' => inv m')) :
    inv (a.leaves m) := by
  unfold Ensures at h
  unfold Action.leaves
  cases hrun : a m with
  | ok x m' =>
      rw [hrun] at h
      exact h
  | error stop m' =>
      rw [hrun] at h
      cases stop with
      | fault f => exact h
      | outOfFuel => exact h.elim

/-- What holds of the machine that an action leaves holds besides what the
action ensures. -/
theorem Ensures.and_leaves {a : Action α} {inv : Machine → Prop}
    (h : a.Ensures m answer fault) (hinv : inv (a.leaves m)) :
    a.Ensures m (fun x m' => answer x m' ∧ inv m')
      (fun g m' => fault g m' ∧ inv m') := by
  unfold Ensures at h ⊢
  unfold Action.leaves at hinv
  cases hrun : a m with
  | ok x m' =>
      rw [hrun] at h hinv
      exact ⟨h, hinv⟩
  | error stop m' =>
      rw [hrun] at h hinv
      cases stop with
      | fault f => exact ⟨h, hinv⟩
      | outOfFuel => exact h

/-- An action that does not run out of fuel ensures the machine that it
leaves. -/
theorem Ensures.of_leaves {a : Action α} {inv : Machine → Prop}
    (h : a.Ensures m answer fault) (hinv : inv (a.leaves m)) :
    a.Ensures m (fun _ m' => inv m') (fun _ m' => inv m') :=
  (h.and_leaves hinv).mono (fun _ _ hm => hm.2) fun _ _ hm => hm.2

/-- The answer that an action gives from a machine, and the machine that it
leaves. -/
def answer? (a : Action α) (m : Machine) : Option (α × Machine) :=
  match a m with
  | .ok x m' => some (x, m')
  | .error _ _ => none

/-- The fault that an action stops with from a machine, and the machine
that it leaves. -/
def fault? (a : Action α) (m : Machine) : Option (Fault × Machine) :=
  match a m with
  | .error (.fault g) m' => some (g, m')
  | _ => none

/-- An answer that is seen is the one the action gave. -/
theorem eq_ok_of_answer? {a : Action α} {x : α} {m' : Machine}
    (h : a.answer? m = some (x, m')) :
    a m = .ok x m' := by
  unfold answer? at h
  split at h
  · next hrun =>
      cases h
      exact hrun
  · cases h

/-- A fault that is seen is the one the action stopped with. -/
theorem eq_error_of_fault? {a : Action α} {g : Fault} {m' : Machine}
    (h : a.fault? m = some (g, m')) : a m = .error (.fault g) m' := by
  unfold fault? at h
  split at h
  · next hrun =>
      cases h
      exact hrun
  · cases h

-- ============================================= putting actions together

/-- One action after another: the second starts from what the first
ensures. -/
theorem Ensures.bind {a : Action α} {next : α → Action β}
    {answer' : β → Machine → Prop} (answer : α → Machine → Prop)
    (h : a.Ensures m answer fault)
    (hnext : ∀ x m', answer x m' → (next x).Ensures m' answer' fault) :
    (a >>= next).Ensures m answer' fault := by
  unfold Ensures at h ⊢
  simp only [Bind.bind, EStateM.bind]
  cases hrun : a m with
  | ok x m' =>
      rw [hrun] at h
      exact hnext x m' h
  | error stop m' =>
      rw [hrun] at h
      cases stop with
      | fault f => exact h
      | outOfFuel => exact h

/-- Two continuations that agree on every answer the first action can
give are the same. -/
theorem Ensures.bind_congr {a : Action α} {next next' : α → Action β}
    (answer : α → Machine → Prop) (h : a.Ensures m answer fun _ _ => True)
    (hnext : ∀ x m', answer x m' → next x m' = next' x m') :
    (a >>= next) m = (a >>= next') m := by
  unfold Ensures at h
  simp only [Bind.bind, EStateM.bind]
  cases hrun : a m with
  | ok x m' =>
      rw [hrun] at h
      exact hnext x m' h
  | error stop m' => rfl

/-- Reading the machine first gives the rest of the action its own machine. -/
theorem get_bind (next : Machine → Action α) :
    ((MonadState.get : Action Machine) >>= next) m = next m m := rfl

theorem Ensures.get {next : Machine → Action α}
    (h : (next m).Ensures m answer fault) :
    ((MonadState.get : Action Machine) >>= next).Ensures m answer fault :=
  h

/-- An attempt has no fault of its own: what it caught is its answer. -/
theorem Ensures.attempt {a : Action α}
    {answer' : Except Fault α → Machine → Prop}
    (h : a.Ensures m (fun x => answer' (.ok x))
      (fun f => answer' (.error f))) :
    (Action.attempt a).Ensures m answer' fault := by
  unfold Ensures Action.attempt
  unfold Ensures at h
  cases hrun : a m with
  | ok x m' =>
      rw [hrun] at h
      exact h
  | error stop m' =>
      rw [hrun] at h
      cases stop with
      | fault f => exact h
      | outOfFuel => exact h.elim

-- ========================================================= small actions

/-- A push puts the value on top, or finds the stack full and changes
nothing. -/
theorem pushOperand_ensures (v : Value) {answer : Unit → Machine → Prop}
    (hroom :
      answer () { m with
        operands := { m.operands with items := m.operands.items.push v } })
    (hfull : ¬ m.operands.items.size < m.operands.limit →
      fault ⟨site, .stackOverflow m.operands.limit⟩ m) :
    (pushOperand site v).Ensures m answer fault := by
  unfold Ensures pushOperand onOperands OperandStack.push Stack.push
  by_cases h : m.operands.items.size < m.operands.limit
  · simp only [h, if_true]
    exact hroom
  · simp only [h, if_false]
    exact hfull h

/-- A pop takes the value on top, or finds none and changes nothing. -/
theorem popOperand_ensures {answer : Value → Machine → Prop}
    (htop : ∀ v, m.operands.items.back? = some v →
      answer v { m with
        operands := { m.operands with items := m.operands.items.pop } })
    (hempty : m.operands.items.back? = none →
      fault ⟨site, .stackUnderflow⟩ m) :
    (popOperand site).Ensures m answer fault := by
  unfold Ensures popOperand onOperands OperandStack.pop Stack.pop
  cases h : m.operands.items.back? with
  | some v => exact htop v h
  | none => exact hempty h

/-- Popping several values takes them all or none. -/
theorem popOperands_ensures (n : Nat) {answer : Array Value → Machine → Prop}
    (hall : n ≤ m.operands.items.size →
      answer (m.operands.items.extract (m.operands.items.size - n)
        m.operands.items.size)
        { m with operands :=
            { m.operands with
              items := m.operands.items.shrink (m.operands.items.size - n) } })
    (hfew : fault ⟨site, .stackUnderflow⟩ m) :
    (popOperands site n).Ensures m answer fault := by
  unfold Ensures popOperands onOperands OperandStack.popMany Stack.popMany
  by_cases h : n ≤ m.operands.items.size
  · simp only [h, if_true]
    exact hall h
  · simp only [h, if_false]
    exact hfew

/-- A computation on values leaves the machine alone. -/
theorem compute_ensures {result : Except ValueError α} (hok : ∀ x, answer x m)
    (herror : ∀ e, fault ⟨site, .value e⟩ m) :
    (compute site result).Ensures m answer fault := by
  unfold Ensures compute
  cases result with
  | ok x => exact hok x
  | error e => exact herror e

theorem currentFrame_eq {f : Frame} {rest : Array Frame}
    (htop : m.calls.items = rest.push f) :
    currentFrame site m = .ok f m := by
  unfold currentFrame onCalls CallStack.current Stack.top
  rw [htop, Array.back?_push]

/-- Moving the running frame changes its counter and nothing else. -/
theorem moveTo_eq {f : Frame} {rest : Array Frame}
    (htop : m.calls.items = rest.push f) (ip : Nat) :
    moveTo site ip m
      = .ok () { m with calls := m.calls.replaceTop { f with ip } } := by
  unfold moveTo
  simp only [Bind.bind, EStateM.bind]
  rw [currentFrame_eq htop]
  rfl

/-- The frame in the place of the running one is the only one that changes. -/
theorem replaceTop_items {calls : CallStack} {f : Frame} {rest : Array Frame}
    (htop : calls.items = rest.push f) (g : Frame) :
    (calls.replaceTop g).items = rest.push g := by
  unfold Stack.replaceTop
  rw [htop, Array.pop_push]

/-- So there are as many frames as before. -/
theorem size_replaceTop {calls : CallStack} {f : Frame} {rest : Array Frame}
    (htop : calls.items = rest.push f) (g : Frame) :
    (calls.replaceTop g).size = calls.size := by
  unfold Stack.size
  rw [replaceTop_items htop, htop, Array.size_push, Array.size_push]

/-- Entering a function with the arguments that it takes fails nowhere. -/
theorem onFrame_entering {g : Function} {args : Array Value}
    (hargs : args.size = g.params) (site index : Nat) (returnIp : Option Nat)
    (m : Machine) :
    onFrame site (Frame.entering index g args returnIp) m
      = .ok (.entered index g args returnIp) m := by
  have hroom : args.size ≤ g.slots := by
    rw [hargs]
    exact Nat.le_max_right _ _
  rw [Frame.entering_eq hroom]
  rfl

-- ========================================================== iterations

/-- The cases of an iteration, each with what it comes down to. -/
inductive Iteration (reenter : Reentry)
    (m : Machine) : EStateM.Result Stop Machine Progress → Prop
  | halting (hhalt : m.haltRequested) :
    Iteration reenter m (.ok (.halted .haltRequested) m)
  | finished (hhalt : ¬ m.haltRequested) (hempty : m.calls.items = #[]) :
    Iteration reenter m (.ok (.halted .completed) m)
  | ranOff {rest : Array Frame} {f : Frame} (hhalt : ¬ m.haltRequested)
    (htop : m.calls.items = rest.push f) (hend : f.ip = m.program.length) :
    Iteration reenter m
      ((carryOut f.ip m.calls.size .ret >>= fun _ => settle : Action _) m)
  | astray {rest : Array Frame} {f : Frame} (hhalt : ¬ m.haltRequested)
    (htop : m.calls.items = rest.push f) (hip : m.program.length < f.ip) :
    Iteration reenter m
      (fail f.ip (.corruptedCounter (Int64.ofNat f.ip) m.program.length) m)
  | fetched {rest : Array Frame} {f : Frame} {i : Instruction}
    (hhalt : ¬ m.haltRequested) (htop : m.calls.items = rest.push f)
    (hi : m.program.code[f.ip]? = some i) :
    Iteration reenter m
      (dispatch reenter f.ip m.calls.size i
        (m.observe (.instruction f.ip i m.operands.size)))

/-- An iteration asks in this order whether a halt is requested, whether a
frame is left and where it stands. -/
theorem iterate_iteration (reenter : Reentry) (m : Machine) :
    Iteration reenter m (iterate reenter m) := by
  change Iteration reenter m
    ((if m.haltRequested then _ else _ : Action Progress) m)
  by_cases hhalt : m.haltRequested
  · rw [if_pos hhalt]
    exact .halting hhalt
  rw [if_neg hhalt]
  cases hf : m.calls.top? with
  | none => exact .finished hhalt (Array.back?_eq_none_iff.mp hf)
  | some f =>
      obtain ⟨rest, htop⟩ := Array.back?_eq_some_iff.mp hf
      change Iteration reenter m
        ((if f.ip = m.program.length then _ else _ : Action Progress) m)
      by_cases hend : f.ip = m.program.length
      · rw [if_pos hend]
        exact .ranOff hhalt htop hend
      · rw [if_neg hend]
        cases hi : m.program.code[f.ip]? with
        | none =>
            -- what is neither in the code nor right behind it is past that
            have hle : m.program.length ≤ f.ip :=
              Array.getElem?_eq_none_iff.mp hi
            exact .astray hhalt htop (by omega)
        | some i => exact .fetched hhalt htop hi

-- ================================================================ steps

/-- An action whose outcome is noted and reported, as that of a step is. -/
def noted (a : Action Progress) : Action Progress := fun m =>
  match a m with
  | .ok .running m => .ok .running m
  | .ok (.halted reason) m =>
    .ok (.halted reason)
      ({ m with status := .halted }.observe (.halted reason))
  | .error (.fault f) m => .error (.fault f) (noteFault f m)
  | .error .outOfFuel m => .error .outOfFuel m

/-- A step is an iteration of the machine as running, with its outcome
noted. -/
theorem step_eq_noted (reenter : Reentry) (m : Machine) :
    step reenter m = noted (iterate reenter) { m with status := .running } :=
      rfl

/-- What an action ensures, once its outcome is noted. -/
theorem Ensures.noted {a : Action Progress}
    {answer answer' : Progress → Machine → Prop}
    {fault fault' : Fault → Machine → Prop} (h : a.Ensures m answer fault)
    (hrunning : ∀ m', answer .running m' → answer' .running m')
    (hhalted : ∀ r m', answer (.halted r) m' →
      answer' (.halted r)
        (Machine.observe { m' with status := .halted } (.halted r)))
    (hfault : ∀ g m', fault g m' → fault' g (noteFault g m')) :
    (Action.noted a).Ensures m answer' fault' := by
  unfold Ensures at h ⊢
  unfold Action.noted
  cases hrun : a m with
  | ok progress m' =>
      rw [hrun] at h
      cases progress with
      | running => exact hrunning m' h
      | halted reason => exact hhalted reason m' h
  | error stop m' =>
      rw [hrun] at h
      cases stop with
      | fault g => exact hfault g m' h
      | outOfFuel => exact h

/-- What a step ensures is what its iteration ensures, once the outcome is
noted. -/
theorem Ensures.step {reenter : Reentry}
    {answer answer' : Progress → Machine → Prop}
    {fault fault' : Fault → Machine → Prop}
    (h : (iterate reenter).Ensures { m with status := .running } answer fault)
    (hrunning : ∀ m', answer .running m' → answer' .running m')
    (hhalted : ∀ r m', answer (.halted r) m' →
      answer' (.halted r)
        (Machine.observe { m' with status := .halted } (.halted r)))
    (hfault : ∀ g m', fault g m' → fault' g (noteFault g m')) :
    (Action.step reenter).Ensures m answer' fault' :=
  h.noted hrunning hhalted hfault

-- ================================================================= runs

theorem advance_run_succ (fuel : Nat) (m : Machine) :
    advance (fuel + 1) .run m
      = match step (advance fuel) m with
        | .ok .running m => advance fuel .run m
        | outcome => outcome := rfl

theorem advance_start_succ (fuel : Nat) (m : Machine) :
    advance (fuel + 1) .start m
      = match enter m with
        | .ok () m => advance fuel .run m
        | .error stop m => .error stop m := rfl

end Action

end StackMachine
