/-
The two stacks of a machine: values being computed with, and the frames of
the functions being run. Both are bounded and change only at the top, which
is the last item; `Stack` holds what they share, and the two differ in what
they call a failure.

A frame has all its slots from the start. Numbers of slots are unbounded
here: a function may ask for more than any memory holds, and what an
allocation of that size does is outside of this model.
-/
import StackMachine.Program

namespace StackMachine

/-- Why an operation on a stack or a frame fails. -/
inductive StackError where
  | underflow
  | overflow (limit : Nat)
  | depthExceeded (limit : Nat)
  | noFrame
  | invalidSlot (index count : Nat)
  deriving DecidableEq

/-- The wording of a stack error. -/
def StackError.message : StackError → String
  | underflow => "operand stack underflow"
  | overflow limit => s!"operand stack overflow (limit {limit})"
  | depthExceeded limit => s!"call depth exceeded (limit {limit})"
  | noFrame => "call stack is empty"
  | invalidSlot index count =>
    s!"local index {index} out of range ({count} slots)"

-- ======================================================= bounded stacks

/-- A stack of at most `limit` items, the top last. -/
structure Stack (α : Type) where
  limit : Nat
  items : Array α := #[]

/-- What changes a stack of `α` and gives an answer, or fails and leaves the
stack as it was. -/
abbrev StackOp (α : Type) := EStateM StackError (Stack α)

namespace Stack

/-- The number of items. -/
def size (s : Stack α) : Nat := s.items.size

/-- Whether there are no items. -/
def isEmpty (s : Stack α) : Bool := s.items.isEmpty

/-- The item on top. -/
def top? (s : Stack α) : Option α := s.items.back?

/-- Replaces the item on top. -/
def replaceTop (s : Stack α) (a : α) : Stack α :=
  { s with items := s.items.pop.push a }

/-- Removes all items. -/
def clear (s : Stack α) : Stack α := { s with items := #[] }

/-- Puts an item on top; a full stack fails with what `full` says of its
limit. -/
def push (full : Nat → StackError) (a : α) : StackOp α Unit := fun s =>
  if s.items.size < s.limit then .ok () { s with items := s.items.push a }
  else .error (full s.limit) s

/-- The item on top; a stack without one fails. -/
def top (empty : StackError) : StackOp α α := fun s =>
  match s.items.back? with
  | some a => .ok a s
  | none => .error empty s

/-- Takes the item on top; a stack without one fails. -/
def pop (empty : StackError) : StackOp α α := fun s =>
  match s.items.back? with
  | some a => .ok a { s with items := s.items.pop }
  | none => .error empty s

/-- Takes the `n` items on top, the topmost last, or none of them when
there are fewer. -/
def popMany (empty : StackError) (n : Nat) : StackOp α (Array α) := fun s =>
  if n ≤ s.items.size then
    .ok (s.items.extract (s.items.size - n) s.items.size)
      { s with items := s.items.shrink (s.items.size - n) }
  else .error empty s

end Stack

-- ============================================================= operands

/-- The values being computed with, shared by all frames. -/
abbrev OperandStack := Stack Value

namespace OperandStack

/-- Pushes a value. -/
def push (v : Value) : StackOp Value Unit := Stack.push .overflow v

/-- Pops the top value. -/
def pop : StackOp Value Value := Stack.pop .underflow

/-- The top value. -/
def peek : StackOp Value Value := Stack.top .underflow

/-- Pops `n` values, the top one last; fewer are left alone. -/
def popMany (n : Nat) : StackOp Value (Array Value) :=
  Stack.popMany .underflow n

end OperandStack

-- =============================================================== frames

/-- One activation of a function. -/
structure Frame where
  /-- The index of the function. -/
  function : Nat
  /-- The next instruction. -/
  ip : Nat
  /-- Where the caller goes on; a frame without a caller has none. -/
  returnIp : Option Nat
  locals : Array Value
  deriving DecidableEq

namespace Frame

/-- A frame whose slots are all null. It is made whatever their number is; a
number that no allocation can hold is outside of this model. -/
def new (function ip params locals : Nat) (returnIp : Option Nat) : Frame :=
  { function, ip, returnIp
    locals := Array.replicate (max locals params) .null }

/-- The value in a slot. -/
def getLocal (f : Frame) (slot : Nat) : Except StackError Value :=
  match f.locals[slot]? with
  | some v => .ok v
  | none => .error (.invalidSlot slot f.locals.size)

/-- Puts a value into a slot. -/
def setLocal (f : Frame) (slot : Nat) (v : Value) : Except StackError Frame :=
  if slot < f.locals.size then
    .ok { f with locals := f.locals.setIfInBounds slot v }
  else .error (.invalidSlot slot f.locals.size)

/-- Puts values into the slots from `slot` on, one after the other. -/
def setLocals (f : Frame) (slot : Nat) : List Value → Except StackError Frame
  | [] => .ok f
  | v :: values => do
    let f ← f.setLocal slot v
    setLocals f (slot + 1) values

/-- A frame at the start of a function, with the arguments put into its first
slots. -/
def entering (index : Nat) (f : Function) (args : Array Value)
    (returnIp : Option Nat) : Except StackError Frame :=
  (new index f.entry f.params f.locals returnIp).setLocals 0 args.toList

/-- The frame of a function that was entered: the arguments, and null in the
slots behind them. -/
def entered (index : Nat) (f : Function) (args : Array Value)
    (returnIp : Option Nat) : Frame :=
  { function := index, ip := f.entry, returnIp
    locals := args ++ Array.replicate (f.slots - args.size) .null }

/-- Values take the place of the nulls that follow the slots already
filled. -/
theorem setLocals_replicate (f : Frame) (values : List Value) {n : Nat}
    (hn : values.length ≤ n) (filled : Array Value)
    (hlocals : f.locals = filled ++ Array.replicate n Value.null) :
    f.setLocals filled.size values
      = .ok { f with
          locals := filled ++ values.toArray
            ++ Array.replicate (n - values.length) Value.null } := by
  induction values generalizing f n filled with
  | nil => simp [setLocals, ← hlocals]
  | cons v values ih =>
    obtain ⟨n, rfl⟩ := Nat.exists_eq_add_of_le' (Nat.zero_lt_of_lt hn)
    have hlt : filled.size < f.locals.size := by
      rw [hlocals]
      simp
    -- the first null that is left gives way to the first value
    have hset : f.locals.setIfInBounds filled.size v
        = filled.push v ++ Array.replicate n Value.null := by
      rw [hlocals]
      apply Array.toList_inj.mp
      simp [List.replicate_succ]
    have hrest := ih { f with locals := f.locals.setIfInBounds filled.size v }
      (Nat.le_of_succ_le_succ hn) (filled.push v) hset
    rw [setLocals, setLocal, if_pos hlt]
    rw [Array.size_push] at hrest
    refine hrest.trans ?_
    simp

/-- Entering a function with as many arguments as it has slots for fills the
first of them and fails nowhere. -/
theorem entering_eq {f : Function} {args : Array Value}
    (h : args.size ≤ f.slots) (index : Nat) (returnIp : Option Nat) :
    entering index f args returnIp
      = .ok (entered index f args returnIp) := by
  have hset := setLocals_replicate
    (new index f.entry f.params f.locals returnIp) args.toList h #[]
  simpa [entering, entered, new, Function.slots] using hset

end Frame

/-- The frames of the functions being run, the outermost first. -/
abbrev CallStack := Stack Frame

namespace CallStack

/-- Pushes a frame. -/
def push (f : Frame) : StackOp Frame Unit := Stack.push .depthExceeded f

/-- Pops the running frame. -/
def pop : StackOp Frame Frame := Stack.pop .noFrame

/-- The running frame. -/
def current : StackOp Frame Frame := Stack.top .noFrame

end CallStack

end StackMachine
