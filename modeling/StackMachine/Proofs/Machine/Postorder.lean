/-
Straight code computes a formula. A formula is a tree of constants and
operators; laid out in postorder, the operands of every operator stand before
it, the left ones first. Stepping a machine through that code leaves the value
of the formula on top of what was on the operand stack, or faults at the first
node in postorder that has no value, with what that node is refused for.

The run is an induction on the formula. Everything that the code of a subtree
relies on is said relative to one machine at the start of the whole code
(`Along`): how many instructions have been executed since, and which values
lie on the operand stack now. Two runs in a row are then one run, and what lies
below on either stack never enters.

The room that a formula needs is its height, counted so that the right operand
of an operator is computed above the left one.
-/
import StackMachine.Proofs.Machine.Move

namespace StackMachine

-- ============================================================= formulas

/-- The operators of formulas. -/
inductive Operator where
  | arith (op : Arith)
  | lessThan
  deriving DecidableEq

namespace Operator

/-- The opcode that executes an operator. -/
def opcode : Operator → Opcode
  | arith .add => .add
  | arith .sub => .sub
  | arith .mul => .mul
  | arith .div => .div
  | lessThan => .cmpLt

/-- What an operator computes of its left and its right operand. -/
def apply : Operator → Value → Value → Except ValueError Value
  | arith op, a, b => Value.arith op a b
  | lessThan, a, b => (a.lessThan b).map .bool

end Operator

/-- A tree of operators over the constants of a program. -/
inductive Formula (p : Program) where
  | constant (index : Fin p.constants.size)
  | apply (op : Operator) (left right : Formula p)

namespace Formula

variable {p : Program}

/-- The value of a formula: the left operand first, then the right one, then
what the operator computes of them. -/
def value : Formula p → Except ValueError Value
  | constant index => .ok p.constants[index]
  | apply op left right => do
    let a ← left.value
    let b ← right.value
    op.apply a b

/-- The subtrees in postorder: those of the left operand, those of the right
one, the root. -/
def postorder : Formula p → List (Formula p)
  | constant index => [constant index]
  | apply op left right =>
    left.postorder ++ right.postorder ++ [apply op left right]

/-- How many values lie on the operand stack at once while a formula is
computed. -/
def height : Formula p → Nat
  | constant _ => 1
  | apply _ left right => max left.height (right.height + 1)

/-- The instruction executes the root of a formula whose operands have been
computed. -/
def ExecutedBy : Formula p → Instruction → Prop
  | constant index, i => i.opcode = .pushConst ∧ i.index? = some index.val
  | apply op _ _, i => i.opcode = op.opcode

/-- The code of the program holds a formula in postorder from `start` on. -/
def LaidOut (e : Formula p) (start : Nat) : Prop :=
  ∀ k node, e.postorder[k]? = some node →
    ∃ i, p.code[start + k]? = some i ∧ node.ExecutedBy i

/-- The operands of the root have values that its operator refuses. -/
def Refused : Formula p → ValueError → Prop
  | constant _, _ => False
  | apply op left right, err =>
    ∃ a b, left.value = .ok a ∧ right.value = .ok b ∧ op.apply a b = .error err

/-- The `k`-th subtree in postorder is the first that has no value, and it is
refused itself. -/
structure FailsFirst (e : Formula p) (k : Nat) (err : ValueError) : Prop where
  refused : ∃ node, e.postorder[k]? = some node ∧ node.Refused err
  before : ∀ j < k, ∀ node, e.postorder[j]? = some node →
    ∃ v, node.value = .ok v

/-- Every formula leaves at least its own value. -/
theorem height_pos (e : Formula p) : 0 < e.height := by
  induction e with
  | constant index => exact Nat.one_pos
  | apply op left right hleft hright =>
      exact Nat.lt_of_lt_of_le hleft (Nat.le_max_left _ _)

theorem length_apply (op : Operator) (left right : Formula p) :
    (apply op left right).postorder.length
      = left.postorder.length + right.postorder.length + 1 := by
  simp only [postorder, List.length_append, List.length_singleton]

section Nodes

variable {op : Operator} {l r : Formula p} {k : Nat} {a b : Value}
  {err : ValueError}

/-- The subtrees of the left operand come first. -/
theorem postorder_left (hk : k < l.postorder.length) :
    (apply op l r).postorder[k]? = l.postorder[k]? := by
  rw [postorder, List.append_assoc, List.getElem?_append_left hk]

/-- Behind them come those of the right operand. -/
theorem postorder_right (hk : k < r.postorder.length) :
    (apply op l r).postorder[l.postorder.length + k]? = r.postorder[k]? := by
  rw [postorder, List.append_assoc,
    List.getElem?_append_right (Nat.le_add_right _ _), Nat.add_sub_cancel_left,
    List.getElem?_append_left hk]

/-- The root comes last. -/
theorem postorder_root :
    (apply op l r).postorder[l.postorder.length + r.postorder.length]?
      = some (apply op l r) := by
  rw [postorder, List.getElem?_append_right (by simp)]
  simp

-- =========================================================== first failures

/-- The operator is applied when both operands have values. -/
theorem value_apply (hleft : l.value = .ok a) (hright : r.value = .ok b) :
    (apply op l r).value = op.apply a b := by
  rw [value, hleft, hright]
  rfl

/-- A left operand without a value leaves the root without one, for the same
reason. -/
theorem value_apply_of_left (hleft : l.value = .error err) :
    (apply op l r).value = .error err := by
  rw [value, hleft]
  rfl

/-- So does a right operand, if the left one has a value. -/
theorem value_apply_of_right (hleft : l.value = .ok a)
    (hright : r.value = .error err) :
    (apply op l r).value = .error err := by
  rw [value, hleft, hright]
  rfl

/-- Where a formula has a value, so does every subtree. -/
theorem exists_value_of_mem {e node : Formula p} {v : Value}
    (h : e.value = .ok v) (hnode : node ∈ e.postorder) :
    ∃ w, node.value = .ok w := by
  induction e generalizing v with
  | constant index =>
      obtain rfl := List.mem_singleton.mp hnode
      exact ⟨v, h⟩
  | apply op l r ihleft ihright =>
      cases hleft : l.value with
      | error err =>
          rw [value_apply_of_left hleft] at h
          cases h
      | ok a =>
          cases hright : r.value with
          | error err =>
              rw [value_apply_of_right hleft hright] at h
              cases h
          | ok b =>
              -- the node is in the left operand, in the right one or the
              -- root
              rw [postorder, List.mem_append, List.mem_append,
                List.mem_singleton] at hnode
              rcases hnode with (hmem | hmem) | rfl
              · exact ihleft hleft hmem
              · exact ihright hright hmem
              · exact ⟨v, h⟩

/-- What fails first in the left operand fails first in the whole. -/
theorem FailsFirst.left (h : l.FailsFirst k err) :
    (apply op l r).FailsFirst k err := by
  obtain ⟨node, hnode, hrefused⟩ := h.refused
  have hk : k < l.postorder.length := (List.getElem?_eq_some_iff.mp hnode).1
  refine ⟨⟨node, (postorder_left hk).trans hnode, hrefused⟩,
    fun j hj node hnode => ?_⟩
  rw [postorder_left (Nat.lt_trans hj hk)] at hnode
  exact h.before j hj node hnode

/-- Where the left operand and the first subtrees of the right one have values,
so have the subtrees of the whole up to there. -/
theorem exists_value_before (hleft : l.value = .ok a)
    (hright : ∀ j < k, ∀ node : Formula p, r.postorder[j]? = some node →
      ∃ v, node.value = .ok v)
    (hk : k ≤ r.postorder.length) :
    ∀ j < l.postorder.length + k, ∀ node,
      (apply op l r).postorder[j]? = some node → ∃ v, node.value = .ok v := by
  intro j hj node hnode
  by_cases hjleft : j < l.postorder.length
  · rw [postorder_left hjleft] at hnode
    exact exists_value_of_mem hleft (List.mem_of_getElem? hnode)
  · obtain ⟨j, rfl⟩ := Nat.exists_eq_add_of_le (Nat.not_lt.mp hjleft)
    rw [postorder_right (by omega)] at hnode
    exact hright j (by omega) node hnode

/-- What fails first in the right operand does so in the whole if the left
operand has a value, behind all its subtrees. -/
theorem FailsFirst.right (hleft : l.value = .ok a) (h : r.FailsFirst k err) :
    (apply op l r).FailsFirst (l.postorder.length + k) err := by
  obtain ⟨node, hnode, hrefused⟩ := h.refused
  have hk : k < r.postorder.length := (List.getElem?_eq_some_iff.mp hnode).1
  exact ⟨⟨node, (postorder_right hk).trans hnode, hrefused⟩,
    exists_value_before hleft h.before (Nat.le_of_lt hk)⟩

/-- The root fails first if both operands have values that it refuses. -/
theorem FailsFirst.root (hleft : l.value = .ok a) (hright : r.value = .ok b)
    (h : op.apply a b = .error err) :
    (apply op l r).FailsFirst (l.postorder.length + r.postorder.length)
      err := by
  refine ⟨⟨_, postorder_root, a, b, hleft, hright, h⟩,
    exists_value_before hleft (fun j _ node hnode => ?_) (Nat.le_refl _)⟩
  exact exists_value_of_mem hright (List.mem_of_getElem? hnode)

-- ============================================================ laid out code

variable {start : Nat}

/-- The code of a formula begins with that of the left operand. -/
theorem LaidOut.left (h : (apply op l r).LaidOut start) : l.LaidOut start := by
  intro k node hnode
  have hk : k < l.postorder.length := (List.getElem?_eq_some_iff.mp hnode).1
  exact h k node ((postorder_left hk).trans hnode)

/-- The code of the right operand stands behind it. -/
theorem LaidOut.right (h : (apply op l r).LaidOut start) :
    r.LaidOut (start + l.postorder.length) := by
  intro k node hnode
  have hk : k < r.postorder.length := (List.getElem?_eq_some_iff.mp hnode).1
  rw [Nat.add_assoc]
  exact h _ node ((postorder_right hk).trans hnode)

/-- The instruction of the root stands behind both. -/
theorem LaidOut.root (h : (apply op l r).LaidOut start) :
    ∃ i, p.code[start + l.postorder.length + r.postorder.length]? = some i
      ∧ i.opcode = op.opcode := by
  rw [Nat.add_assoc]
  exact h _ _ postorder_root

end Nodes

end Formula

-- =============================================================== walking

namespace Machine

/-- So many steps lead from one machine to another, and the machine goes on
behind each. -/
inductive Walks (reenter : Reentry) : Nat → Machine → Machine → Prop
  | stay (m : Machine) : Walks reenter 0 m m
  | step {n : Nat} {m m₁ m₂ : Machine}
    (hstep : Action.step reenter m = .ok .running m₁)
    (h : Walks reenter n m₁ m₂) : Walks reenter (n + 1) m m₂

variable {reenter : Reentry} {m m₁ m₂ : Machine} {a b : Nat}

theorem Walks.single (h : Action.step reenter m = .ok .running m₁) :
    Walks reenter 1 m m₁ :=
  .step h (.stay m₁)

/-- A walk goes on where another one ended, in as many steps as both. -/
theorem Walks.trans (h : Walks reenter a m m₁) (h' : Walks reenter b m₁ m₂) :
    Walks reenter (a + b) m m₂ := by
  induction h with
  | stay m => rwa [Nat.zero_add]
  | step hstep _ ih =>
      rw [Nat.succ_add]
      exact .step hstep (ih h')

/-- `m` has executed `n` instructions since `start`, where `f` was the running
frame, and holds these operands. Nothing else has changed but what the
observer has seen. -/
structure Along (start : Machine) (f : Frame) (n : Nat) (items : Array Value)
    (m : Machine) : Prop where
  operands : m.operands = { start.operands with items }
  calls : m.calls = start.calls.replaceTop { f with ip := f.ip + n }
  haltRequested : m.haltRequested = start.haltRequested
  program : m.program = start.program
  handlers : m.handlers = start.handlers
  output : m.output = start.output
  haltsAt : m.observer.haltsAt = start.observer.haltsAt
  seen : m.observer.seen = start.observer.seen + n

variable {start : Machine} {rest : Array Frame} {f : Frame} {n : Nat}
  {items : Array Value}

/-- No instruction has been executed at the start. -/
theorem along_start (htop : start.calls.items = rest.push f) :
    Along start f 0 start.operands.items start := by
  refine ⟨rfl, ?_, rfl, rfl, rfl, rfl, rfl, rfl⟩
  have hitems : start.calls.items.pop.push f = start.calls.items := by
    rw [htop, Array.pop_push]
  show start.calls = { start.calls with items := start.calls.items.pop.push f }
  rw [hitems]

/-- The frame that was running still is, as many instructions further on. -/
theorem Along.frames (h : Along start f n items m)
    (htop : start.calls.items = rest.push f) :
    m.calls.items = rest.push { f with ip := f.ip + n } := by
  rw [h.calls]
  exact Action.replaceTop_items htop _

/-- The machine with other operands. -/
def withOperands (m : Machine) (items : Array Value) : Machine :=
  { m with operands := { m.operands with items } }

/-- An instruction is reported, and then the operands are replaced and the
frame is moved on. -/
theorem Along.fetched {i : Instruction} {items' : Array Value}
    (h : Along start f n items m) (htop : start.calls.items = rest.push f)
    (hquiet : start.observer.haltsAt (start.observer.seen + n) = false)
    {m₁ : Machine} (hm₁ : m₁ = Machine.observe { m with status := .running }
      (.instruction (f.ip + n) i m.operands.size)) :
    Along start f (n + 1) items' { m₁.withOperands items' with
      calls := m₁.calls.replaceTop { f with ip := f.ip + n + 1 } } := by
  subst hm₁
  refine ⟨?_, ?_, ?_, h.program, h.handlers, h.output, h.haltsAt, ?_⟩
  · show { m.operands with items := items' } = _
    rw [h.operands]
  · -- the running frame is put back on the frames below it
    have htwice : m.calls.items.pop.push { f with ip := f.ip + n + 1 }
        = start.calls.items.pop.push { f with ip := f.ip + n + 1 } := by
      rw [h.frames htop, htop, Array.pop_push, Array.pop_push]
    show { m.calls with
      items := m.calls.items.pop.push { f with ip := f.ip + n + 1 } } = _
    rw [htwice, h.calls]
    rfl
  · show (m.haltRequested || m.observer.haltsAt m.observer.seen) = _
    rw [h.haltRequested, h.haltsAt, h.seen, hquiet, Bool.or_false]
  · show m.observer.seen + 1 = _
    rw [h.seen]
    rfl

end Machine

namespace Action

open Machine

variable {reenter : Reentry} {start m : Machine} {rest : Array Frame}
  {f : Frame} {n : Nat} {items : Array Value} {i : Instruction}

/-- An instruction that only replaces the operands is carried out by moving
its frame on. -/
theorem dispatch_straight (reenter : Reentry) {result : Array Value → Prop}
    {fault : Fault → Prop} (htop : m.calls.items = rest.push f)
    (hhalt : m.haltRequested = false)
    (hexecute : (execute reenter f.ip i).Ensures m
      (fun t m' => t = .next ∧ ∃ items, result items
        ∧ m' = m.withOperands items)
      fun g _ => fault g) :
    (dispatch reenter f.ip m.calls.size i).Ensures m
      (fun progress m' => progress = .running ∧ ∃ items, result items ∧ m' =
        { m.withOperands items with
          calls := m.calls.replaceTop { f with ip := f.ip + 1 } })
      fun g _ => fault g := by
  refine Ensures.bind _ hexecute ?_
  rintro _ _ ⟨rfl, items, hitems, rfl⟩
  have hnext := carryOut_next (m := m.withOperands items) htop rfl rfl
  refine Ensures.bind (fun _ m' => m' = _) (.ok hnext rfl) ?_
  rintro _ _ rfl
  refine ⟨?_, items, hitems, rfl⟩
  show (if m.haltRequested then _ else if (m.calls.replaceTop _).isEmpty then _
    else _)
    = Progress.running
  simp [hhalt, Stack.isEmpty, Stack.replaceTop]

/-- An instruction that only replaces the operands moves the machine along by
one. -/
theorem step_along (reenter : Reentry) {result : Array Value → Prop}
    {fault : Fault → Prop} (htop : start.calls.items = rest.push f)
    (hhalt : start.haltRequested = false)
    (hquiet : start.observer.haltsAt (start.observer.seen + n) = false)
    (hi : start.program.code[f.ip + n]? = some i) (h : Along start f n items m)
    (hexecute : ∀ m₁, m₁.program = start.program →
      m₁.operands = { start.operands with items } →
      (execute reenter (f.ip + n) i).Ensures m₁
        (fun t m₂ => t = .next ∧ ∃ items', result items'
          ∧ m₂ = m₁.withOperands items')
        fun g _ => fault g) :
    (step reenter).Ensures m
      (fun progress m' => progress = .running ∧ ∃ items', result items'
        ∧ Along start f (n + 1) items' m')
      fun g _ => fault g := by
  have hframes := h.frames htop
  have hunhalted := h.haltRequested.trans hhalt
  have hfetch : m.program.code[f.ip + n]? = some i := by
    rw [h.program]
    exact hi
  have hquiet' : m.observer.haltsAt m.observer.seen = false := by
    rw [h.haltsAt, h.seen]
    exact hquiet
  let m₁ := Machine.observe { m with status := .running }
    (.instruction (f.ip + n) i m.operands.size)
  -- the observer does not ask for a halt here
  have hhalt₁ : m₁.haltRequested = false := by
    show (m.haltRequested || m.observer.haltsAt m.observer.seen) = false
    rw [hunhalted, hquiet', Bool.or_false]
  have hdispatch := dispatch_straight reenter (m := m₁) hframes hhalt₁
    (hexecute m₁ h.program h.operands)
  refine (Ensures.fetched (m := { m with status := .running })
    hunhalted hframes hfetch hdispatch).step ?_
      (fun _ _ h => absurd h.1 (by simp)) fun _ _ h => h
  rintro m' ⟨-, items', hitems', rfl⟩
  exact ⟨rfl, items', hitems', h.fetched htop hquiet rfl⟩

-- ========================================================= instructions

variable {site : Nat}

/-- The value that is taken is the one on top. -/
theorem popOperand_push {v : Value}
    (hitems : m.operands.items = items.push v) :
    popOperand site m = .ok v (m.withOperands items) := by
  unfold popOperand onOperands OperandStack.pop Stack.pop
  rw [hitems, Array.back?_push, Array.pop_push]
  rfl

/-- A constant is pushed where there is room, and nothing else happens. -/
theorem execute_constant {index : Nat} {v : Value}
    (hop : i.opcode = .pushConst) (hindex : i.index? = some index)
    (hv : m.program.constants[index]? = some v)
    (hitems : m.operands.items = items)
    (hroom : items.size < m.operands.limit) :
    (execute reenter site i).Ensures m
      (fun t m' => t = .next ∧ ∃ items', items' = items.push v
        ∧ m' = m.withOperands items')
      fun _ _ => False := by
  subst hitems
  unfold execute
  rw [hop]
  refine Ensures.get ?_
  simp only [hindex, Option.bind_some, hv]
  refine Ensures.bind
    (fun _ m' => m' = m.withOperands (m.operands.items.push v)) ?_ ?_
  · exact pushOperand_ensures v rfl fun hfull => absurd hroom hfull
  · rintro _ _ rfl
    exact ⟨rfl, _, rfl, rfl⟩

/-- Both operands are taken, the right one first, and give way to what is
computed of them. -/
theorem binary_straight (site : Nat) {α : Type}
    (result : Value → Value → Except ValueError α) (wrap : α → Value)
    {below : Array Value} {a b : Value}
    (hitems : m.operands.items = (below.push a).push b)
    (hroom : below.size < m.operands.limit) :
    (do
      let b ← popOperand site
      let a ← popOperand site
      let x ← compute site (result a b)
      pushOperand site (wrap x)
      return Transfer.next : Action Transfer).Ensures m
      (fun t m' => t = .next ∧ ∃ items', (∃ v, (result a b).map wrap = .ok v
        ∧ items' = below.push v) ∧ m' = m.withOperands items')
      fun g _ => ∃ err,
        (result a b).map wrap = .error err ∧ g = ⟨site, .value err⟩ := by
  let m₁ := m.withOperands (below.push a)
  let m₂ := m.withOperands below
  have hb : popOperand site m = .ok b m₁ := popOperand_push hitems
  have ha : popOperand site m₁ = .ok a m₂ := popOperand_push rfl
  refine Ensures.bind (fun x m' => x = b ∧ m' = m₁) (.ok hb ⟨rfl, rfl⟩) ?_
  rintro b _ ⟨rfl, rfl⟩
  refine Ensures.bind (fun x m' => x = a ∧ m' = m₂) (.ok ha ⟨rfl, rfl⟩) ?_
  rintro a _ ⟨rfl, rfl⟩
  -- the operands are gone, so the result finds room
  cases hresult : result a b with
  | error err => exact ⟨err, rfl, rfl⟩
  | ok x =>
      refine Ensures.bind (fun y m' => y = x ∧ m' = m₂) ⟨rfl, rfl⟩ ?_
      rintro x _ ⟨rfl, rfl⟩
      refine Ensures.bind
        (fun _ m' => m' = m.withOperands (below.push (wrap x))) ?_ ?_
      · exact pushOperand_ensures (wrap x) rfl fun hfull => absurd hroom hfull
      · rintro _ _ rfl
        exact ⟨rfl, _, ⟨_, rfl, rfl⟩, rfl⟩

/-- An operator takes the two values on top and puts the result in their
place, or faults with what it refuses them for. -/
theorem execute_operator {op : Operator} {below : Array Value} {a b : Value}
    (hop : i.opcode = op.opcode)
    (hitems : m.operands.items = (below.push a).push b)
    (hroom : below.size < m.operands.limit) :
    (execute reenter site i).Ensures m
      (fun t m' => t = .next
        ∧ ∃ items', (∃ v, op.apply a b = .ok v ∧ items' = below.push v)
        ∧ m' = m.withOperands items')
      fun g _ => ∃ err,
        op.apply a b = .error err ∧ g = ⟨site, .value err⟩ := by
  unfold execute
  rw [hop]
  cases op with
  | lessThan => exact binary_straight site Value.lessThan .bool hitems hroom
  | arith op =>
      have hid : (Value.arith op a b).map (fun v => v)
          = Value.arith op a b := by
        cases Value.arith op a b <;> rfl
      have hbinary :=
        binary_straight site (Value.arith op) (fun v => v) hitems hroom
      rw [hid] at hbinary
      cases op with
      | add | sub | mul | div => exact hbinary

-- ================================================================= runs

/-- A constant is pushed. -/
theorem step_constant (reenter : Reentry) {index : Nat} {v : Value}
    (htop : start.calls.items = rest.push f)
    (hhalt : start.haltRequested = false)
    (hquiet : start.observer.haltsAt (start.observer.seen + n) = false)
    (hi : start.program.code[f.ip + n]? = some i) (hop : i.opcode = .pushConst)
    (hindex : i.index? = some index)
    (hv : start.program.constants[index]? = some v)
    (hroom : items.size < start.operands.limit) (h : Along start f n items m) :
    ∃ m', step reenter m = .ok .running m'
      ∧ Along start f (n + 1) (items.push v) m' := by
  have hstep : (step reenter).Ensures m (fun progress m' => progress = .running
      ∧ ∃ items', items' = items.push v ∧ Along start f (n + 1) items' m')
        fun _ _ => False :=
    step_along reenter htop hhalt hquiet hi h fun m₁ hprogram hoperands =>
      execute_constant hop hindex (hprogram ▸ hv)
        (congrArg Stack.items hoperands)
        (congrArg Stack.limit hoperands ▸ hroom)
  rcases hstep.outcome with ⟨_, m', hrun, rfl, _, rfl, halong⟩
    | ⟨_, _, _, hfalse⟩
  · exact ⟨m', hrun, halong⟩
  · exact hfalse.elim

/-- An operator is applied to the two values on top, or refused. -/
theorem step_operator (reenter : Reentry) {op : Operator} {below : Array Value}
    {a b : Value} (htop : start.calls.items = rest.push f)
    (hhalt : start.haltRequested = false)
    (hquiet : start.observer.haltsAt (start.observer.seen + n) = false)
    (hi : start.program.code[f.ip + n]? = some i) (hop : i.opcode = op.opcode)
    (hroom : below.size < start.operands.limit)
    (h : Along start f n ((below.push a).push b) m) :
    (∃ v m', op.apply a b = .ok v ∧ step reenter m = .ok .running m'
      ∧ Along start f (n + 1) (below.push v) m') ∨
    ∃ err m', op.apply a b = .error err
      ∧ step reenter m = .error (.fault ⟨f.ip + n, .value err⟩) m' := by
  have hstep : (step reenter).Ensures m (fun progress m' => progress = .running
      ∧ ∃ items', (∃ v, op.apply a b = .ok v ∧ items' = below.push v)
        ∧ Along start f (n + 1) items' m')
      fun g _ => ∃ err,
        op.apply a b = .error err ∧ g = ⟨f.ip + n, .value err⟩ :=
    step_along reenter htop hhalt hquiet hi h fun m₁ _ hoperands =>
      execute_operator hop (congrArg Stack.items hoperands)
        (congrArg Stack.limit hoperands ▸ hroom)
  rcases hstep.outcome with
    ⟨_, m', hrun, rfl, _, ⟨v, hv, rfl⟩, halong⟩ | ⟨_, m', hrun, err, herr, rfl⟩
  · exact .inl ⟨v, m', hv, hrun, halong⟩
  · exact .inr ⟨err, m', herr, hrun⟩

/-- Code that holds a formula leaves its value on the operands, or faults at
the first node that has none. -/
theorem walks_formula (reenter : Reentry) (e : Formula start.program)
    (htop : start.calls.items = rest.push f)
    (hhalt : start.haltRequested = false) (hquiet : ∀ k < e.postorder.length,
      start.observer.haltsAt (start.observer.seen + (n + k)) = false)
    (hcode : e.LaidOut (f.ip + n))
    (hroom : items.size + e.height ≤ start.operands.limit)
    (h : Along start f n items m) :
    (∃ v m', e.value = .ok v ∧ Walks reenter e.postorder.length m m'
      ∧ Along start f (n + e.postorder.length) (items.push v) m') ∨
    ∃ k err m₁ m',
      e.value = .error err ∧ e.FailsFirst k err ∧ Walks reenter k m m₁
      ∧ step reenter m₁ = .error (.fault ⟨f.ip + (n + k), .value err⟩) m' := by
  induction e generalizing n items m with
  | constant index =>
      obtain ⟨i, hi, hop, hindex⟩ := hcode 0 _ rfl
      obtain ⟨m', hrun, halong⟩ := step_constant reenter htop hhalt
        (hquiet 0 Nat.one_pos) hi hop hindex
        (Array.getElem?_eq_getElem index.isLt) hroom h
      exact .inl ⟨_, m', rfl, .single hrun, halong⟩
  | apply op l r ihleft ihright =>
      -- the left operand is computed first, then the right one, then the root
      rw [Formula.length_apply] at hquiet ⊢
      have hheight : (Formula.apply op l r).height
          = max l.height (r.height + 1) := rfl
      have hpos := (Formula.apply op l r).height_pos
      rcases ihleft (fun k hk => hquiet k (by omega)) hcode.left (by omega) h
        with
          ⟨a, m₁, ha, hwalk₁, h₁⟩ | ⟨k, err, m₁, m', herr, hfirst, hwalk, hrun⟩
      · -- the left value lies below while the right operand is computed
        rcases ihright (fun k hk => Nat.add_assoc n _ k ▸ hquiet _ (by omega))
            (Nat.add_assoc .. ▸ hcode.right) (by rw [Array.size_push]; omega)
            h₁ with
          ⟨b, m₂, hb, hwalk₂, h₂⟩ | ⟨k, err, m₂, m', herr, hfirst, hwalk, hrun⟩
        · obtain ⟨i, hi, hop⟩ := hcode.root
          rw [Nat.add_assoc, Nat.add_assoc, ← Nat.add_assoc n] at hi
          have hroot := step_operator reenter htop hhalt
            (Nat.add_assoc n _ _ ▸ hquiet _ (by omega)) hi hop (by omega) h₂
          rcases hroot with ⟨v, m', hv, hrun, halong⟩ | ⟨err, m', herr, hrun⟩
          · refine .inl ⟨v, m', (Formula.value_apply ha hb).trans hv,
              (hwalk₁.trans hwalk₂).trans (.single hrun), ?_⟩
            rw [← Nat.add_assoc, ← Nat.add_assoc]
            exact halong
          · refine .inr
              ⟨_, err, m₂, m', (Formula.value_apply ha hb).trans herr,
                .root ha hb herr, hwalk₁.trans hwalk₂, ?_⟩
            rw [← Nat.add_assoc n]
            exact hrun
        · refine .inr
            ⟨_, err, m₂, m', Formula.value_apply_of_right ha herr,
              hfirst.right ha, hwalk₁.trans hwalk, ?_⟩
          rw [← Nat.add_assoc n]
          exact hrun
      · exact .inr
          ⟨k, err, m₁, m', Formula.value_apply_of_left herr,
            hfirst.left, hwalk, hrun⟩

/-- A frame that stands at the first instruction of a formula in postorder,
with room for it on the operand stack and no halt to hold the machine back,
steps past the last one and leaves the value of the formula on top of the
operands, with nothing else changed but its position; or it steps to the first
node in postorder that is refused, and faults there with what the node is
refused for. -/
theorem postorder_computes (reenter : Reentry) (e : Formula m.program)
    (htop : m.calls.items = rest.push f) (hcode : e.LaidOut f.ip)
    (hroom : m.operands.items.size + e.height ≤ m.operands.limit)
    (hhalt : m.haltRequested = false)
    (hquiet : ∀ k < e.postorder.length,
      m.observer.haltsAt (m.observer.seen + k) = false) :
    (∃ v m', e.value = .ok v ∧ Walks reenter e.postorder.length m m'
      ∧ m.Along f e.postorder.length (m.operands.items.push v) m') ∨
    ∃ k err m₁ m',
      e.value = .error err ∧ e.FailsFirst k err ∧ Walks reenter k m m₁
      ∧ step reenter m₁ = .error (.fault ⟨f.ip + k, .value err⟩) m' := by
  have hrun := walks_formula reenter (n := 0) e htop hhalt
    (fun k hk => (Nat.zero_add k).symm ▸ hquiet k hk) hcode hroom
    (along_start htop)
  simpa only [Nat.zero_add] using hrun

/-- Code for `2 - (7 - 2)`, and an instruction behind it. -/
def subtracting : Program where
  constants := #[.int 7, .int 2]
  code := #[{ opcode := .pushConst, operand := 1 }, { opcode := .pushConst },
    { opcode := .pushConst, operand := 1 }, { opcode := .sub },
    { opcode := .sub }, { opcode := .ret }]
  functions := #[⟨"main", 0, 0, 0⟩]
  entry := 0
  entry_lt := Nat.zero_lt_one

/-- Stands at the code with a value on the operand stack and just enough
room. -/
def subtractor : Machine :=
  { Machine.new subtracting with
    operands := ⟨4, #[.null]⟩
    calls := ⟨1, #[⟨0, 0, none, #[]⟩]⟩ }

/-- The formula that the code holds. -/
def difference : Formula subtractor.program :=
  .apply (.arith .sub) (.constant ⟨1, Nat.one_lt_two⟩)
    (.apply (.arith .sub) (.constant ⟨0, Nat.zero_lt_two⟩)
      (.constant ⟨1, Nat.one_lt_two⟩))

/-- The five instructions leave `2 - (7 - 2)` on top of the value that was
there. -/
theorem subtractor_computes :
    ∃ m', Walks (advance 0) 5 subtractor m'
      ∧ subtractor.Along ⟨0, 0, none, #[]⟩ 5 #[.null, .int (-3)] m' := by
  have htop : subtractor.calls.items = #[].push ⟨0, 0, none, #[]⟩ := rfl
  have hcode : difference.LaidOut 0 := by
    intro k node hnode
    rcases k with _ | _ | _ | _ | _ | k
    · cases hnode
      exact ⟨_, rfl, rfl, rfl⟩
    · cases hnode
      exact ⟨_, rfl, rfl, rfl⟩
    · cases hnode
      exact ⟨_, rfl, rfl, rfl⟩
    · cases hnode
      exact ⟨_, rfl, rfl⟩
    · cases hnode
      exact ⟨_, rfl, rfl⟩
    · cases hnode
  have hvalue : difference.value = .ok (.int (-3)) := by rfl
  rcases postorder_computes (advance 0) difference htop hcode
      (Nat.le_refl 4) rfl
      fun _ _ =>
      rfl with ⟨v, m', hv, hwalk, halong⟩ | ⟨k, err, m₁, m', herr, _⟩
  · rw [hvalue] at hv
    cases hv
    exact ⟨m', hwalk, halong⟩
  · rw [hvalue] at herr
    cases herr

end Action

end StackMachine
