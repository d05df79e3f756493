/-
Powers of ten, by which the digits of a decimal number are moved past its
point.
-/

namespace StackMachine

/-- Ten to the power of `n`. -/
def tenTo (n : Nat) : Nat := Nat.pow 10 n

@[simp] theorem tenTo_zero : tenTo 0 = 1 := rfl

theorem tenTo_succ (n : Nat) : tenTo (n + 1) = tenTo n * 10 := rfl

/-- Moving digits past the point never loses them all. -/
theorem tenTo_pos (n : Nat) : 0 < tenTo n := by
  induction n with
  | zero => decide
  | succ n ih =>
    rw [tenTo_succ]
    omega

end StackMachine
