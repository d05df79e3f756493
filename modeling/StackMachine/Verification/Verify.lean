/-
Verification of programs before they run. All defects are collected, in the
order of the three passes: bounds, structure, reachability.
-/
import StackMachine.Verification.Bounds
import StackMachine.Verification.Reach
import StackMachine.Verification.Structure

namespace StackMachine.Verification

/-- Every defect of a program; a program without any is verified. -/
def verify (p : Program) : List Defect :=
  boundsDefects p ++ structureDefects p ++ reachDefects p

end StackMachine.Verification
