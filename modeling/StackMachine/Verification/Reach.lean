/-
Reachability: every instruction must be reachable from some function's start,
through fall-through and jumps alone. A jump leads to its target, a
conditional jump also to the next instruction, a return and a halt lead
nowhere, and everything else, calls included, leads to the next instruction.

`mark` is a depth-first search over the positions still to visit. It ends
because each step either drops a position or marks one that was unmarked; the
positions it adds are paid for by that mark.
-/
import StackMachine.Verification.Defect

namespace StackMachine.Verification

/-- The positions that an instruction may lead to. -/
def successors (index : Nat) (i : Instruction) : List Nat :=
  match i.opcode with
  | .halt | .ret => []
  | .jump => i.index?.toList
  | .jumpIfFalse => (index + 1) :: i.index?.toList
  | _ => [index + 1]

/-- Marks every position reachable from those in `pending` through unmarked
ones. Positions outside the code are dropped. -/
def mark (code : Array Instruction) (pending : List Nat)
    (marks : Array Bool) : Array Bool :=
  match pending with
  | [] => marks
  | index :: rest =>
    match code[index]? with
    | none => mark code rest marks
    | some i =>
      if marks[index]? = some false then
        mark code (successors index i ++ rest) (marks.setIfInBounds index true)
      else mark code rest marks
termination_by (marks.count false, pending.length)
decreasing_by
  · exact Prod.Lex.right _ (by simp)
  · next h =>
    obtain ⟨hlt, hfalse⟩ := Array.getElem?_eq_some_iff.mp h
    have hpos : 0 < marks.count false :=
      Array.count_pos_iff.mpr (hfalse ▸ Array.getElem_mem hlt)
    apply Prod.Lex.left
    rw [Array.setIfInBounds_def, dif_pos hlt, Array.count_set hlt, hfalse,
      if_pos (by decide), if_neg (by decide)]
    omega
  · exact Prod.Lex.right _ (by simp)

/-- Which instructions are reachable. The starts of the functions are visited
one after the other, each from the marks that those before it left. -/
def reachable (p : Program) : Array Bool :=
  p.functions.foldl (fun marks f => mark p.code [f.entry] marks)
    (Array.replicate p.length false)

/-- The instructions that are not reachable, in order. -/
def reachDefects (p : Program) : List Defect :=
  let marks := reachable p
  ((List.range p.length).filter fun index => marks[index]? != some true).map
    .unreachable

end StackMachine.Verification
