/-
The command line on the file system: carries a plan out and prints its
report.
-/
import StackMachine.Command.Plan

namespace StackMachine.Command

/-- The text of a failed file operation. -/
def failureText (e : IO.Error) : String :=
  match e with
  | .noFileOrDirectory .. => "No such file or directory (os error 2)"
  | .permissionDenied _ code details => details ++ s!" (os error {code})"
  | .inappropriateType _ code details => details ++ s!" (os error {code})"
  | .invalidArgument _ code details => details ++ s!" (os error {code})"
  | .resourceExhausted _ code details => details ++ s!" (os error {code})"
  | e => toString e

/-- Carries a plan out on the file system. -/
def Plan.carryOut : Plan → IO Report
  | .finish report => return report
  | .read path next => do
    let answer ←
      try
        let bytes ← IO.FS.readBinFile path
        pure (Except.ok bytes.data.toList)
      catch e => pure (Except.error (failureText e))
    (next answer).carryOut
  | .write path bytes next => do
    let answer ←
      try
        IO.FS.withFile path .write fun handle => do
          handle.write ⟨bytes.toArray⟩
          handle.flush
        pure (Except.ok ())
      catch e => pure (Except.error (failureText e))
    (next answer).carryOut

end StackMachine.Command

/-- Runs the command line. -/
def main (args : List String) : IO UInt32 := do
  let report ← (StackMachine.Command.plan StackMachine.ampleFuel args).carryOut
  IO.print report.output
  IO.eprint report.errors
  return report.exit
