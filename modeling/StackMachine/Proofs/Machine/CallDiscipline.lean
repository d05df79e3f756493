/-
Calls and returns. A return pops a frame and looks at nothing in it: the
place recorded for it, `returnIp`, is never read. The caller goes on where its
own frame stands, which the call has moved behind itself. That the two places
agree is an invariant of all that can happen to a machine after its start
(`Linked`), through recursion, returns off the end of the code, halts, faults
and whatever confined hosts do.

The other half of the discipline is that frames below the running one are out
of reach: while a stack stays higher than `d`, its lowest `d` frames do not
change (`Above.lower_eq`). What a call takes from the operands and what it
makes of it is `step_call`.
-/
import Mathlib.Logic.Relation
import StackMachine.Proofs.Machine.Placed

namespace StackMachine

-- ======================================================= linked frames

/-- The bottom frame has no caller, and every other one is to return to where
the frame below it stands. -/
structure Linked (frames : Array Frame) : Prop where
  bottom : ∀ f, frames[0]? = some f → f.returnIp = none
  above : ∀ k below f, frames[k]? = some below → frames[k + 1]? = some f →
    f.returnIp = some below.ip

theorem linked_empty : Linked #[] where
  bottom f hf := by simp at hf
  above k below f hbelow := by simp at hbelow

/-- A frame is on top of linked frames if it is to return to where the last of
them stands. -/
theorem linked_push {rest : Array Frame} {f : Frame} :
    Linked (rest.push f)
      ↔ Linked rest ∧ f.returnIp = rest.back?.map (·.ip) := by
  -- the frames below are where they were
  have hlower : ∀ {k : Nat} {g}, rest[k]? = some g →
      (rest.push f)[k]? = some g := by
    intro k g hg
    have hk : k < rest.size := (Array.getElem?_eq_some_iff.mp hg).1
    rw [Array.getElem?_push, if_neg (by omega), hg]
  constructor
  · intro h
    refine ⟨⟨fun g hg => h.bottom g (hlower hg), fun k below g hbelow hg =>
      h.above k below g (hlower hbelow) (hlower hg)⟩, ?_⟩
    cases hback : rest.back? with
    | none =>
        obtain rfl : rest = #[] := by simpa using hback
        exact h.bottom f rfl
    | some below =>
        obtain ⟨lower, rfl⟩ := Array.back?_eq_some_iff.mp hback
        refine h.above lower.size below f (hlower Array.getElem?_push_size) ?_
        rw [← Array.size_push, Array.getElem?_push_size]
  · rintro ⟨h, hreturn⟩
    constructor
    · intro g hg
      rw [Array.getElem?_push] at hg
      by_cases hempty : 0 = rest.size
      · rw [if_pos hempty] at hg
        obtain rfl : f = g := Option.some.inj hg
        obtain rfl : rest = #[] := Array.eq_empty_of_size_eq_zero hempty.symm
        exact hreturn
      · rw [if_neg hempty] at hg
        exact h.bottom g hg
    · intro k below g hbelow hg
      rw [Array.getElem?_push] at hbelow hg
      -- only the pair at the top is new
      by_cases htop : k + 1 = rest.size
      · rw [if_pos htop] at hg
        obtain rfl : f = g := Option.some.inj hg
        rw [if_neg (by omega)] at hbelow
        rw [hreturn, Array.back?_eq_getElem?, ← htop,
          Nat.add_sub_cancel, hbelow]
        rfl
      · rw [if_neg htop] at hg
        have hlt : k + 1 < rest.size := (Array.getElem?_eq_some_iff.mp hg).1
        rw [if_neg (by omega)] at hbelow
        exact h.above k below g hbelow hg

-- ============================================================= one move

/-- What a frame returns to is recorded once, and a call records where it
leaves its caller. -/
theorem Move.linked {p : Program} {frames frames' : Array Frame}
    (hmove : Move p frames frames') (h : Linked frames) : Linked frames' := by
  cases hmove with
  | stay => exact h
  | shift =>
      obtain ⟨hrest, hreturn⟩ := linked_push.mp h
      exact linked_push.mpr ⟨hrest, hreturn⟩
  | @call rest f =>
      obtain ⟨hrest, hreturn⟩ := linked_push.mp h
      have hcaller : Linked (rest.push { f with ip := f.ip + 1 }) :=
        linked_push.mpr ⟨hrest, hreturn⟩
      refine linked_push.mpr ⟨hcaller, ?_⟩
      rw [Array.back?_push]
      rfl
  | ret => exact (linked_push.mp h).1

/-- A move touches the running frame and nothing below it. -/
theorem Move.lower_eq {p : Program} {frames frames' : Array Frame}
    (hmove : Move p frames frames') {d : Nat} (hd : d < frames.size) :
    d ≤ frames'.size ∧ ∀ k < d, frames'[k]? = frames[k]? := by
  have hpush : ∀ {rest : Array Frame} {f : Frame}, d ≤ rest.size → ∀ k < d,
      (rest.push f)[k]? = rest[k]? := by
    intro rest f hrest k hk
    rw [Array.getElem?_push, if_neg (by omega)]
  cases hmove with
  | stay => exact ⟨by omega, fun _ _ => rfl⟩
  | shift =>
      rw [Array.size_push] at hd
      refine ⟨by simp; omega, fun k hk => ?_⟩
      rw [hpush (by omega) k hk, hpush (by omega) k hk]
  | call =>
      rw [Array.size_push] at hd
      refine ⟨by simp; omega, fun k hk => ?_⟩
      rw [hpush (by simp; omega) k hk, hpush (by omega) k hk,
        hpush (by omega) k hk]
  | ret =>
      rw [Array.size_push] at hd
      refine ⟨by omega, fun k hk => ?_⟩
      rw [hpush (by omega) k hk]

-- ================================================================= runs

namespace Machine

/-- What can happen next to a machine that was started: a step, whether it
faults or not, or a change of the halt flag. -/
inductive Onward (m : Machine) : Machine → Prop
  | step (reenter : Reentry) : Onward m ((Action.step reenter).leaves m)
  | requestHalt : Onward m m.requestHalt
  | clearHalt : Onward m m.clearHalt

/-- The machines that `m` can become once it is started at its entry. -/
inductive Visits (m : Machine) : Machine → Prop
  | entered : Visits m (Action.enter.leaves m)
  | onward {m₁ m₂ : Machine} (h : Visits m m₁) (hnext : m₁.Onward m₂) :
    Visits m m₂

/-- What `m` can become while there are more than `d` frames; in the last
machine there may be `d` of them. -/
def Above (d : Nat) : Machine → Machine → Prop :=
  Relation.ReflTransGen fun m m' => d < m.calls.size ∧ m.Onward m'

variable {raises : Fault → Prop} {m m₁ m₂ : Machine}

/-- Whatever happens next to a machine is a step of it, or moves no frame. -/
theorem Onward.turned (h : m.Onward m₁) (hm : m.Confined raises) :
    m.Turned m₁ := by
  cases h with
  | step reenter =>
      have hstep : (Action.step reenter).Ensures m (fun _ m' => m.Turned m')
          (fun _ m' => m.Turned m') :=
        (Action.step_ensures hm).mono (fun _ _ ht => ht) fun _ _ ht => ht.1
      exact hstep.leaves
  | requestHalt =>
      exact (Beside.of_eq rfl rfl rfl : m.Beside m.requestHalt).turned
  | clearHalt => exact (Beside.of_eq rfl rfl rfl : m.Beside m.clearHalt).turned

/-- The entry frame returns to nowhere, and it is alone. -/
theorem enter_linked (hm : m.Confined raises) :
    Action.enter.Ensures m
      (fun _ m' => m'.Confined raises ∧ Linked m'.calls.items)
      (fun _ m' => m'.Confined raises ∧ Linked m'.calls.items) := by
  refine Action.enter_ensures ?_ ?_
  · intro m' _ hhandlers hcalls
    refine ⟨hm.of_handlers hhandlers, ?_⟩
    rw [hcalls]
    exact linked_push.mpr ⟨linked_empty, rfl⟩
  · intro m' _ hhandlers hcalls
    refine ⟨hm.of_handlers hhandlers, ?_⟩
    rw [hcalls]
    exact linked_empty

/-- By induction on what happens, the frames of every machine that is visited
are linked. -/
theorem Visits.linked (hm : m.Confined raises) (h : m.Visits m₁) :
    m₁.Confined raises ∧ Linked m₁.calls.items := by
  induction h with
  | entered => exact (enter_linked hm).leaves
  | onward _ hnext ih =>
      have ht := hnext.turned ih.1
      exact ⟨ht.confined raises ih.1, ht.move.linked ih.2⟩

/-- While a stack stays higher than `d`, its lowest `d` frames are as they
were. -/
theorem Above.lower_eq {d : Nat} (hm : m.Confined raises)
    (hd : d ≤ m.calls.size) (h : Above d m m₁) :
    d ≤ m₁.calls.size ∧ ∀ k < d, m₁.calls.items[k]? = m.calls.items[k]? := by
  suffices hall : m₁.Confined raises ∧ d ≤ m₁.calls.size
      ∧ ∀ k < d, m₁.calls.items[k]? = m.calls.items[k]? from hall.2
  induction h with
  | refl => exact ⟨hm, hd, fun _ _ => rfl⟩
  | tail _ hnext ih =>
      obtain ⟨hhigh, honward⟩ := hnext
      obtain ⟨hconfined, -, hlower⟩ := ih
      have ht := honward.turned hconfined
      obtain ⟨hsize, hsame⟩ := ht.move.lower_eq hhigh
      exact ⟨ht.confined raises hconfined, hsize,
        fun k hk => (hsame k hk).trans (hlower k hk)⟩

/-- Wherever a run from the entry is cut off, it leaves a machine that is
visited. -/
theorem visits_start (hm : m.Confined raises) (fuel : Nat) :
    m.Visits ((Action.advance (fuel + 1) .start).leaves m) := by
  have henter : Action.enter.Ensures m (fun _ m' => m.Visits m')
      (fun _ m' => m.Visits m' ∧ True) :=
    ((enter_linked hm).of_leaves .entered).mono (fun _ _ h => h)
      fun _ _ h => ⟨h, trivial⟩
  have hstep : ∀ reenter m', m.Visits m' → (Action.step reenter).Ensures m'
      (fun _ m'' => m.Visits m'') (fun _ m'' => m.Visits m'' ∧ True) := by
    intro reenter m' hvisits
    have hleft := hvisits.onward (.step reenter)
    exact ((Action.step_ensures (hvisits.linked hm).1).of_leaves hleft).mono
      (fun _ _ h => h)
      fun _ _ h => ⟨h, trivial⟩
  exact (Session.start_maintains hstep henter.maintains fuel).leaves

-- ============================================================ one call

/-- The running frame `f` stands at a call of `g`, the `n`-th function, and no
halt holds it back; `args` are the arguments on the operand stack. -/
structure AtCall (m : Machine) (rest : Array Frame) (f : Frame) (n : Nat)
    (g : Function) (xs args : Array Value) : Prop where
  unhalted : m.haltRequested = false
  frames : m.calls.items = rest.push f
  instruction : ∃ i, m.program.code[f.ip]? = some i ∧ i.opcode = .call
    ∧ i.index? = some n
  callee : m.program.functions[n]? = some g
  operands : m.operands.items = xs ++ args
  arguments : args.size = g.params

/-- The call has been made: its arguments are in the first slots of a new
frame at the start of `g`, the other slots are null, and the caller stands
behind the call. -/
structure Called (m : Machine) (rest : Array Frame) (f : Frame) (n : Nat)
    (g : Function) (xs args : Array Value) : Prop where
  operands : m.operands.items = xs
  frames : m.calls.items = (rest.push { f with ip := f.ip + 1 }).push
    { function := n, ip := g.entry, returnIp := some (f.ip + 1)
      locals := args ++ Array.replicate (g.slots - args.size) .null }

/-- The call was refused for want of room for another frame. -/
def Refuses (m : Machine) (f : Frame) (fault : Fault) : Prop :=
  fault = ⟨f.ip, .callDepthExceeded m.calls.limit⟩
    ∧ m.calls.limit ≤ m.calls.size

end Machine

namespace Action

variable {m : Machine} {rest : Array Frame} {f : Frame} {n : Nat}
  {g : Function} {xs args : Array Value} {reenter : Reentry}

/-- The values on top become the arguments, in the order in which they lie. -/
theorem popOperands_append (site : Nat)
    (hoperands : m.operands.items = xs ++ args) :
    popOperands site args.size m
      = .ok args { m with operands := { m.operands with items := xs } } := by
  unfold popOperands onOperands OperandStack.popMany Stack.popMany
  have hle : args.size ≤ m.operands.items.size := by
    rw [hoperands, Array.size_append]
    omega
  have hrest : m.operands.items.size - args.size = xs.size := by
    rw [hoperands, Array.size_append]
    omega
  simp only [hle, if_true, hrest]
  simp [hoperands]

/-- A call takes its arguments off the operand stack and asks for the frame
that holds them. -/
theorem call_takes {i : Instruction} (hindex : i.index? = some n)
    (hg : m.program.functions[n]? = some g)
    (hoperands : m.operands.items = xs ++ args) (hargs : args.size = g.params)
    (site : Nat) {fault : Fault → Machine → Prop} :
    (call site i).Ensures m
      (fun t m' => t = .call (.entered n g args (some (site + 1)))
        ∧ m' = { m with operands := { m.operands with items := xs } })
          fault := by
  have hpop := popOperands_append site hoperands
  rw [hargs] at hpop
  refine Ensures.get ?_
  simp only [hindex, Option.bind_some, hg, Option.map_some]
  refine Ensures.bind (fun taken m' => taken = args
    ∧ m' = { m with operands := { m.operands with items := xs } })
      (.ok hpop ⟨rfl, rfl⟩) ?_
  rintro args _ ⟨rfl, rfl⟩
  refine Ensures.bind (fun frame m' =>
    frame = .entered n g args (some (site + 1))
      ∧ m' = { m with operands := { m.operands with items := xs } })
    (.ok (onFrame_entering hargs _ _ _ _) ⟨rfl, rfl⟩) ?_
  rintro _ _ ⟨rfl, rfl⟩
  exact ⟨rfl, rfl⟩

/-- The transfer pushes that frame, or refuses it for want of room. -/
theorem dispatch_call {i : Instruction} (htop : m.calls.items = rest.push f)
    (hop : i.opcode = .call) (hindex : i.index? = some n)
    (hg : m.program.functions[n]? = some g)
    (hoperands : m.operands.items = xs ++ args) (hargs : args.size = g.params)
    (depth : Nat) :
    (dispatch reenter f.ip depth i).Ensures m
      (fun _ m' => m'.Called rest f n g xs args)
      (fun fault _ => m.Refuses f fault) := by
  -- the arguments are gone from the operands
  let m₁ := { m with operands := { m.operands with items := xs } }
  have hexecute : execute reenter f.ip i = call f.ip i := by
    unfold execute
    rw [hop]
  unfold dispatch
  rw [hexecute]
  refine Ensures.bind _ (call_takes hindex hg hoperands hargs f.ip) ?_
  rintro _ _ ⟨rfl, rfl⟩
  refine Ensures.bind (fun _ m' => m'.Called rest f n g xs args) ?_
    (fun _ _ h => h)
  refine carryOut_call (m := m₁) htop _ _ ?_ ?_
  · intro m' _ _ hoperands' hcalls
    exact ⟨congrArg Stack.items hoperands', hcalls⟩
  · intro _ _ _ _ hfull
    exact ⟨rfl, hfull⟩

/-- A step at a call makes the call, unless there is no room for it. -/
theorem step_call (hcall : m.AtCall rest f n g xs args) :
    (step reenter).Ensures m (fun _ m' => m'.Called rest f n g xs args)
      (fun fault _ => m.Refuses f fault) := by
  obtain ⟨i, hi, hop, hindex⟩ := hcall.instruction
  have hiterate : (iterate reenter).Ensures { m with status := .running }
      (fun _ m' => m'.Called rest f n g xs args)
      (fun fault _ => m.Refuses f fault) := by
    refine Ensures.fetched hcall.unhalted hcall.frames hi ?_
    let m₀ :=
      Machine.observe { m with status := .running }
        (.instruction f.ip i m.operands.size)
    exact dispatch_call (m := m₀) hcall.frames hop hindex hcall.callee
      hcall.operands hcall.arguments _
  refine hiterate.step ?_ ?_ ?_
  · intro m' h
    exact h
  · intro reason m' h
    exact ⟨h.operands, h.frames⟩
  · intro fault m' h
    exact h

end Action

namespace Machine

/-- Calls and returns obey a discipline, whatever confined hosts do and
however often the machine is halted, faults and is set going again. A call
takes its arguments off the operand stack into the first slots of a new frame,
and fails only for want of room. Every frame is to return to where the frame
below it stands. And as long as a frame or one above it is there, no frame
below it changes, so that when it is gone its caller is as it was, where the
frame was to return to. -/
theorem visits_call_discipline {raises : Fault → Prop} {m m₁ : Machine}
    (hm : m.Confined raises) (hvisits : m.Visits m₁) :
    (∀ reenter rest f n g xs args, m₁.AtCall rest f n g xs args →
      (Action.step reenter).Ensures m₁
      (fun _ m₂ => m₂.Called rest f n g xs args)
        (fun fault _ => m₁.Refuses f fault))
    ∧ Linked m₁.calls.items
    ∧ ∀ lower callee m₂, m₁.calls.items = lower.push callee →
        Above lower.size m₁ m₂ →
        (∀ k < lower.size, m₂.calls.items[k]? = lower[k]?)
        ∧ lower.size ≤ m₂.calls.size
        ∧ (m₂.calls.size = lower.size →
            m₂.calls.items = lower
              ∧ lower.back?.map (·.ip) = callee.returnIp) := by
  obtain ⟨hconfined, hlinked⟩ := hvisits.linked hm
  refine ⟨fun _ _ _ _ _ _ _ hcall => Action.step_call hcall, hlinked, ?_⟩
  intro lower callee m₂ hframes habove
  have hsize : m₁.calls.size = lower.size + 1 := by
    rw [Stack.size, hframes, Array.size_push]
  obtain ⟨hle, hsame⟩ := habove.lower_eq hconfined (by omega)
  have hlower : ∀ k < lower.size, m₂.calls.items[k]? = lower[k]? := by
    intro k hk
    rw [hsame k hk, hframes, Array.getElem?_push, if_neg (by omega)]
  refine ⟨hlower, hle, fun hdepth => ⟨?_, ?_⟩⟩
  · -- as many frames as before, and the same at every place
    have hdepth' : m₂.calls.items.size = lower.size := hdepth
    refine Array.ext_getElem? fun k => ?_
    by_cases hk : k < lower.size
    · exact hlower k hk
    · rw [Array.getElem?_eq_none (by omega), Array.getElem?_eq_none (by omega)]
  · rw [hframes] at hlinked
    exact (linked_push.mp hlinked).2.symm

/-- A function that is called with one of two values, and calls the host
from its frame. -/
def calling : Program where
  constants := #[.int 1, .int 2]
  code := #[{ opcode := .pushConst }, { opcode := .pushConst, operand := 1 },
    { opcode := .call, operand := 1 }, { opcode := .halt },
    { opcode := .syscall, operand := 7 }, { opcode := .ret }]
  functions := #[⟨"main", 0, 0, 0⟩, ⟨"g", 4, 1, 2⟩]
  entry := 0
  entry_lt := Nat.zero_lt_two

/-- The host pushes a value and asks for a halt. -/
def callingMachine : Machine :=
  (Machine.new calling).register 7
    (.routine (fun _ => .push .null fun _ => .requestHalt .done) 0)

/-- The machine after so many steps. -/
def callingAfter (steps : Nat) : Machine :=
  (Action.advance (steps + 1) .start).leaves callingMachine

def callingFrame (ip : Nat) : Frame :=
  { function := 0, ip, returnIp := none, locals := #[] }

def calledFrame : Frame :=
  { function := 1, ip := 4, returnIp := some 3, locals := #[.int 2, .null] }

/-- The host of this machine raises nothing. -/
theorem calling_confined : callingMachine.Confined fun _ => False := by
  intro entry hmem
  obtain rfl := List.mem_singleton.mp hmem
  intro count
  exact ⟨trivial, fun _ _ => trivial⟩

/-- The machine comes to its call with the argument on the stack and
room for a frame. -/
theorem calling_visits_call : ∃ m, callingMachine.Visits m
    ∧ m.AtCall #[] (callingFrame 2) 1 ⟨"g", 4, 1, 2⟩ #[.int 1] #[.int 2]
    ∧ m.calls.size < m.calls.limit := by
  refine ⟨callingAfter 2, visits_start calling_confined 2,
    ⟨?_, ?_, ?_, ?_, ?_, rfl⟩, ?_⟩
  · decide +kernel
  · decide +kernel
  · exact ⟨{ opcode := .call, operand := 1 }, by decide +kernel, rfl, rfl⟩
  · decide +kernel
  · decide +kernel
  · decide +kernel

/-- A halt inside of the function and a withdrawal of it come before the
return. -/
theorem calling_visits_return : ∃ m m', callingMachine.Visits m
    ∧ m.calls.items = #[callingFrame 3].push calledFrame ∧ Above 1 m m'
    ∧ m'.calls.size = 1 := by
  let m := callingAfter 3
  let m₁ := (Action.step (Action.advance 0)).leaves m
  let m₂ := (Action.step (Action.advance 0)).leaves m₁.clearHalt
  have hhalts : Above 1 m m₁ := .single ⟨by decide +kernel, .step _⟩
  have hreturns : Above 1 m₁ m₂ :=
    (Relation.ReflTransGen.single ⟨by decide +kernel, .clearHalt⟩).tail
      ⟨by decide +kernel, .step _⟩
  exact ⟨m, m₂, visits_start calling_confined 3,
    by decide +kernel, hhalts.trans hreturns, by decide +kernel⟩

/-- The second value becomes the argument, and after a halt inside of the
function its caller goes on behind the call. -/
theorem calling_call_discipline :
    (∃ m₁, callingMachine.Visits m₁
      ∧ (Action.step (Action.advance 0)).Ensures m₁
        (fun _ m₂ => m₂.operands.items = #[.int 1]
          ∧ m₂.calls.items = #[callingFrame 3, calledFrame])
        fun _ _ => False)
    ∧ ∃ m₁ m₂, callingMachine.Visits m₁
        ∧ m₁.calls.items = #[callingFrame 3, calledFrame]
        ∧ Above 1 m₁ m₂ ∧ m₂.calls.items = #[callingFrame 3] := by
  constructor
  · obtain ⟨m₁, hvisits, hat, hroom⟩ := calling_visits_call
    obtain ⟨hcall, -, -⟩ := visits_call_discipline calling_confined hvisits
    refine ⟨m₁, hvisits, (hcall _ _ _ _ _ _ _ hat).mono ?_ ?_⟩
    · intro _ m₂ hcalled
      exact ⟨hcalled.operands, hcalled.frames⟩
    · intro _ _ hfull
      exact Nat.not_le.mpr hroom hfull.2
  · obtain ⟨m₁, m₂, hvisits, hframes, habove, hdepth⟩ := calling_visits_return
    obtain ⟨-, -, hreturn⟩ := visits_call_discipline calling_confined hvisits
    obtain ⟨-, -, hcaller⟩ := hreturn _ _ _ hframes habove
    exact ⟨m₁, m₂, hvisits, hframes, habove, (hcaller hdepth).1⟩

end Machine

end StackMachine
