/-
Host routines: what a system call runs. A routine is a tree of requests to
the machine that called it; each request goes on with its answer, failures
included, so a routine may hand a failure on or go on without it. The tree is
data, which is what lets a machine run it, and a theorem restrict it: a
routine that makes no request to the call stack is one whose tree holds none.

A handler is what is registered under a number. A routine handler may answer
each of its calls differently; a print handler writes the top value and a
line feed, to a device that may have room for so many bytes and no more and
then fails with an error of its own.
-/
import StackMachine.Machine.Event

namespace StackMachine

/-- The ways to set a machine going. -/
inductive Advance where
  /-- One instruction. -/
  | step
  /-- From where it stands until it stops. -/
  | run
  /-- From the entry function until it stops. -/
  | start
  deriving DecidableEq

/-- How far a machine got. -/
inductive Progress where
  | running
  | halted (reason : HaltReason)
  deriving DecidableEq

/-- A device that comes to an end. -/
structure Device where
  /-- The bytes that it still takes. -/
  room : Nat
  /-- The error that it fails with when it is asked to take more. -/
  message : String
  deriving DecidableEq

/-- What a host does with the machine that called it. -/
inductive Routine where
  /-- Returns to the machine. -/
  | done
  /-- Returns with a fault. -/
  | raise (fault : Fault)
  | pop (next : Except Fault Value → Routine)
  | push (v : Value) (next : Except Fault Unit → Routine)
  | requestHalt (next : Routine)
  | clearHalt (next : Routine)
  /-- Asks for the instruction being executed. -/
  | position (next : Nat → Routine)
  | pushFrame (frame : Frame) (next : Except Fault Unit → Routine)
  /-- Sets the machine going, inside the instruction that called the host. -/
  | advance (how : Advance) (next : Except Fault Progress → Routine)
  /-- Registers a routine handler; its `k`-th call runs `calls k`. -/
  | register (id : Int32) (calls : Nat → Routine) (next : Routine)
  /-- Registers a print handler. -/
  | registerPrint (id : Int32) (device : Option Device) (next : Routine)

/-- What is registered under a number. -/
inductive Handler where
  /-- Prints to a device that comes to an end, or to one that takes all. -/
  | print (device : Option Device)
  /-- Runs a routine; `count` calls came before. -/
  | routine (calls : Nat → Routine) (count : Nat)

/-- The number under which printing is usually registered. -/
def printId : Int32 := 1

end StackMachine
