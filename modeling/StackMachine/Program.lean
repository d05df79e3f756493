/-
Programs: constants, code, a function table and the function to start with.
A program always has its entry function, so running one never asks for a
function that is not there; nothing else about the code is promised, and
out-of-range indices are left to verification or to the machine.
-/
import StackMachine.Instruction
import StackMachine.Value

namespace StackMachine

/-- An entry of the function table. -/
structure Function where
  name : String
  /-- The index of the first instruction. -/
  entry : Nat
  /-- The values a call takes from the operand stack into the first slots. -/
  params : Nat
  /-- The declared local slots. -/
  locals : Nat
  deriving DecidableEq

/-- The slots of a frame: never fewer than the parameters. -/
def Function.slots (f : Function) : Nat := max f.locals f.params

/-- Why parts do not make a program. -/
inductive ProgramError where
  /-- There is no function to start with. -/
  | noFunctions
  /-- The entry is not in the function table. -/
  | entryOutOfRange (index count : Nat)
  deriving DecidableEq

/-- The wording of a program error. -/
def ProgramError.message : ProgramError → String
  | noFunctions => "module has no functions"
  | entryOutOfRange index count =>
    s!"entry index {index} out of range (function count {count})"

/-- A program with an entry function. -/
structure Program where
  constants : Array Value
  code : Array Instruction
  functions : Array Function
  /-- The index of the entry function. -/
  entry : Nat
  entry_lt : entry < functions.size
  deriving DecidableEq

namespace Program

/-- A program from its parts. -/
def new (constants : Array Value) (code : Array Instruction)
    (functions : Array Function) (entry : Nat) : Except ProgramError Program :=
  if functions.size = 0 then .error .noFunctions
  else if h : entry
    < functions.size then .ok ⟨constants, code, functions, entry, h⟩
  else .error (.entryOutOfRange entry functions.size)

/-- A program has the parts it was made of. -/
theorem parts_of_new {constants : Array Value} {code : Array Instruction}
    {functions : Array Function} {entry : Nat} {p : Program}
    (h : new constants code functions entry = .ok p) :
    p.constants = constants ∧ p.code = code ∧ p.functions = functions
      ∧ p.entry = entry := by
  unfold new at h
  split at h
  · cases h
  · split at h
    · cases h
      exact ⟨rfl, rfl, rfl, rfl⟩
    · cases h

/-- The number of instructions. -/
def length (p : Program) : Nat := p.code.size

/-- The function to start with. -/
def entryFunction (p : Program) : Function :=
  have := p.entry_lt
  p.functions[p.entry]

/-- The first function with this name, and its index. -/
def functionNamed? (p : Program) (name : String) : Option (Nat × Function) :=
  match p.functions.findIdx? (·.name == name) with
  | none => none
  | some i => p.functions[i]?.map fun f => (i, f)

/-- The better owner of two: the later entry, and of equal entries the earlier
one in the table. -/
def laterEntry :
    Option (Nat × Function) → Nat × Function → Option (Nat × Function)
  | none, candidate => some candidate
  | some best, candidate =>
    some (if best.2.entry < candidate.2.entry then candidate else best)

/-- The function whose body an instruction belongs to: the one with the
greatest entry not past `index`. -/
def owner? (p : Program) (index : Nat) : Option (Nat × Function) :=
  (p.functions.toList.zipIdx.filter (·.1.entry ≤ index)).foldl
    (fun best candidate => laterEntry best (candidate.2, candidate.1)) none

end Program

end StackMachine
