/-
Sessions: what a host does with a machine, one request after the other. It
starts the machine at its entry, and then sets it going again, a step or a
run at a time, as often as it likes, and asks for halts or withdraws them in
between. A fault does not end a session, and neither does a run that is cut
off for want of fuel, which leaves the machine where it was then.

An invariant of sessions is established by every start and kept by every
step; `faults_satisfy` is the one induction over runs and requests, and
whoever has an invariant gets what it says about faults from there.
-/
import StackMachine.Proofs.Machine.Ensures

namespace StackMachine

namespace Session

/-- What a host asks of a machine. -/
inductive Request where
  /-- To be set going, for one step and then for as long as the fuel lasts. -/
  | advance (how : Advance) (fuel : Nat)
  | requestHalt
  | clearHalt

def Request.serve : Request → Action Unit
  | .advance how fuel => do
    let _ ← Action.advance (fuel + 1) how
  | .requestHalt => modify Machine.requestHalt
  | .clearHalt => modify Machine.clearHalt

/-- The faults that the requests of a session return, in order. -/
def faults : List Request → Machine → List Fault
  | [], _ => []
  | r :: rest, m =>
    match r.serve m with
    | .ok _ m' => faults rest m'
    | .error (.fault g) m' => g :: faults rest m'
    | .error .outOfFuel m' => faults rest m'

end Session

namespace Action

/-- Whatever machine the action leaves satisfies `inv`, and a fault that it
stops with satisfies `fault`. -/
def Maintains {α : Type} (a : Action α) (m : Machine) (inv : Machine → Prop)
    (fault : Fault → Prop) : Prop :=
  match a m with
  | .ok _ m' => inv m'
  | .error (.fault g) m' => inv m' ∧ fault g
  | .error .outOfFuel m' => inv m'

/-- What an action ensures whatever happens, it maintains. -/
theorem Ensures.maintains {α : Type} {a : Action α} {m : Machine}
    {inv : Machine → Prop} {fault : Fault → Prop}
    (h : a.Ensures m (fun _ m' => inv m') (fun g m' => inv m' ∧ fault g)) :
    a.Maintains m inv fault := by
  unfold Ensures at h
  unfold Maintains
  cases hrun : a m with
  | ok x m' =>
      rw [hrun] at h
      exact h
  | error stop m' =>
      rw [hrun] at h
      cases stop with
      | fault g => exact h
      | outOfFuel => exact h.elim

/-- An invariant that is maintained holds of the machine that is left. -/
theorem Maintains.leaves {α : Type} {a : Action α} {m : Machine}
    {inv : Machine → Prop} {fault : Fault → Prop}
    (h : a.Maintains m inv fault) : inv (a.leaves m) := by
  unfold Maintains at h
  unfold Action.leaves
  cases hrun : a m with
  | ok x m' =>
      rw [hrun] at h
      exact h
  | error stop m' =>
      rw [hrun] at h
      cases stop with
      | fault g => exact h.1
      | outOfFuel => exact h

end Action

namespace Session

/-- A machine that is `fit` may be started; what a start establishes and steps
and the halt flag keep is an invariant of its sessions. -/
structure Invariant (fit inv : Machine → Prop)
    (fault : Fault → Prop) : Prop where
  startable : ∀ {m}, inv m → fit m
  enter : ∀ {m}, fit m →
    Action.enter.Ensures m (fun _ m' => inv m') (fun g m' => inv m' ∧ fault g)
  step : ∀ reenter {m}, inv m →
    (Action.step reenter).Ensures m (fun _ m' => inv m')
    (fun g m' => inv m' ∧ fault g)
  requestHalt : ∀ {m}, inv m → inv m.requestHalt
  clearHalt : ∀ {m}, inv m → inv m.clearHalt

variable {inv : Machine → Prop} {fault : Fault → Prop} {m : Machine}

/-- To serve a request for a run is to run with one unit of fuel more. -/
theorem serve_advance {how : Advance} {fuel : Nat}
    (h : (Action.advance (fuel + 1) how).Maintains m inv fault) :
    (Request.advance how fuel).serve.Maintains m inv fault := by
  unfold Action.Maintains Request.serve
  unfold Action.Maintains at h
  simp only [Bind.bind, EStateM.bind]
  cases hrun : Action.advance (fuel + 1) how m with
  | ok progress m' =>
      rw [hrun] at h
      exact h
  | error stop m' =>
      rw [hrun] at h
      cases stop with
      | fault g => exact h
      | outOfFuel => exact h

/-- A fault of a session is that of its first request or one of the
others'. -/
theorem fault_of_maintains {r : Request} {rest : List Request} {g : Fault}
    (h : r.serve.Maintains m inv fault)
    (hrest : ∀ {m'}, inv m' → g ∈ faults rest m' → fault g)
    (hg : g ∈ faults (r :: rest) m) : fault g := by
  unfold Action.Maintains at h
  unfold faults at hg
  cases hrun : r.serve m with
  | ok _ m' =>
      rw [hrun] at h hg
      exact hrest h hg
  | error stop m' =>
      rw [hrun] at h hg
      cases stop with
      | fault g' =>
          rcases List.mem_cons.mp hg with rfl | hg
          · exact h.2
          · exact hrest h.1 hg
      | outOfFuel => exact hrest h hg

-- ================================================== what steps maintain

section Steps

variable
  (hstep : ∀ reenter m, inv m →
    (Action.step reenter).Ensures m (fun _ m' => inv m')
    (fun g m' => inv m' ∧ fault g))

include hstep

/-- By induction on the fuel, a run maintains what every step does. -/
theorem run_maintains (fuel : Nat) (hm : inv m) :
    (Action.advance fuel .run).Maintains m inv fault := by
  induction fuel generalizing m with
  | zero => exact hm
  | succ fuel ih =>
      have hnext := (hstep (Action.advance fuel) m hm).maintains
      unfold Action.Maintains Action.advance
      unfold Action.Maintains at hnext
      cases hrun : Action.step (Action.advance fuel) m with
      | ok progress m' =>
          rw [hrun] at hnext
          cases progress with
          | running => exact ih hnext
          | halted reason => exact hnext
      | error stop m' =>
          rw [hrun] at hnext
          exact hnext

/-- So does a start, if entering the program does. -/
theorem start_maintains (henter : Action.enter.Maintains m inv fault)
    (fuel : Nat) :
    (Action.advance (fuel + 1) .start).Maintains m inv fault := by
  unfold Action.Maintains Action.advance
  unfold Action.Maintains at henter
  cases hrun : Action.enter m with
  | ok _ m' =>
      rw [hrun] at henter
      exact run_maintains hstep fuel henter
  | error stop m' =>
      rw [hrun] at henter
      cases stop with
      | fault g => exact henter
      | outOfFuel => exact henter

end Steps

namespace Invariant

variable {fit : Machine → Prop} (h : Invariant fit inv fault)

include h

/-- A start brings the invariant about from a machine that is fit. -/
theorem start_maintains (fuel : Nat) (hm : fit m) :
    (Action.advance (fuel + 1) .start).Maintains m inv fault :=
  Session.start_maintains (fun reenter _ hm' => h.step reenter hm')
    (h.enter hm).maintains fuel

/-- Setting the machine going again maintains it. -/
theorem advance_maintains (how : Advance) (fuel : Nat) (hm : inv m) :
    (Action.advance (fuel + 1) how).Maintains m inv fault := by
  cases how with
  | step => exact (h.step _ hm).maintains
  | run => exact run_maintains (fun reenter _ hm' => h.step reenter hm') _ hm
  | start => exact h.start_maintains fuel (h.startable hm)

/-- So does every request of a session. -/
theorem serve_maintains (r : Request) (hm : inv m) :
    r.serve.Maintains m inv fault := by
  cases r with
  | advance how fuel => exact serve_advance (h.advance_maintains how fuel hm)
  | requestHalt => exact h.requestHalt hm
  | clearHalt => exact h.clearHalt hm

/-- What an invariant says about faults holds of all that a session
returns. -/
theorem faults_satisfy (requests : List Request) (hm : inv m) {g : Fault}
    (hg : g ∈ faults requests m) : fault g := by
  induction requests generalizing m with
  | nil => cases hg
  | cons r rest ih =>
      exact fault_of_maintains (h.serve_maintains r hm) (fun hm' => ih hm') hg

/-- What an invariant says about faults holds of all that a session returns
whose first request is a start. -/
theorem faults_satisfy_of_start (fuel : Nat) (requests : List Request)
    (hm : fit m) {g : Fault}
    (hg : g ∈ faults (.advance .start fuel :: requests) m) : fault g :=
  fault_of_maintains (serve_advance (h.start_maintains fuel hm))
    (fun hm' => h.faults_satisfy requests hm') hg

end Invariant

end Session

end StackMachine
