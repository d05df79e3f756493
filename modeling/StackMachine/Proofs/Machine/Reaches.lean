/-
The machines that a run passes through, and the fault it ends with. A run
from the entry faults exactly if it cannot enter or if one of the machines
it passes through faults at its next step (`runFault?_iff`); fuel and
re-entry drop out of that statement, which is what the proofs about single
steps need.
-/
import StackMachine.Proofs.Machine.Placed

namespace StackMachine

namespace Machine

/-- The fault that a run from the entry ends with, if this much fuel is enough
for it to fault. -/
def runFault? (fuel : Nat) (m : Machine) : Option Fault :=
  match Action.advance fuel .start m with
  | .error (.fault g) _ => some g
  | _ => none

/-- A run of `m` from its entry passes through a machine before each of its
steps. -/
inductive Reaches (m : Machine) : Machine → Prop
  | entered {m' : Machine} (h : Action.enter m = .ok () m') : Reaches m m'
  | stepped {reenter : Reentry} {m₁ m₂ : Machine} (h : Reaches m m₁)
    (hstep : Action.step reenter m₁ = .ok .running m₂) : Reaches m m₂

/-- The next step of the machine faults. -/
def StepFaults (m : Machine) (g : Fault) : Prop :=
  ∃ reenter m', Action.step reenter m = .error (.fault g) m'

variable {raises : Fault → Prop} {p : Program} {m m' : Machine} {g : Fault}

/-- Every machine that a run comes to is placed. -/
theorem Reaches.placed (hm : m.Fit raises p) (h : m.Reaches m') :
    m'.Placed raises p := by
  induction h with
  | entered henter => exact (Action.enter_placed hm).of_ok henter
  | stepped _ hstep ih =>
      exact ih.turned ((Action.step_ensures ih.confined).of_ok hstep)

/-- Whatever a run from a machine on the way comes to, the run from the entry
comes to as well. -/
theorem Reaches.start_eq (hm : m.Fit raises p) (h : m.Reaches m')
    {outcome : EStateM.Result Stop Machine Progress}
    (hrun : ∃ fuel, Action.advance fuel .run m' = outcome) :
    ∃ fuel, Action.advance fuel .start m = outcome := by
  induction h with
  | entered henter =>
      obtain ⟨fuel, hfuel⟩ := hrun
      refine ⟨fuel + 1, ?_⟩
      rw [Action.advance_start_succ, henter]
      exact hfuel
  | @stepped reenter m₁ m₂ hreach hstep ih =>
      obtain ⟨fuel, hfuel⟩ := hrun
      refine ih ⟨fuel + 1, ?_⟩
      rw [Action.advance_run_succ,
        Action.step_reentry (hreach.placed hm).confined, hstep]
      exact hfuel

/-- A run that faults does so at a step of a machine on its way. -/
theorem Reaches.exists_stepFaults (h : m.Reaches m') {fuel : Nat}
    {m'' : Machine}
    (hrun : Action.advance fuel .run m' = .error (.fault g) m'') :
    ∃ m₁, m.Reaches m₁ ∧ m₁.StepFaults g := by
  induction fuel generalizing m' with
  | zero => cases hrun
  | succ fuel ih =>
      rw [Action.advance_run_succ] at hrun
      cases hstep : Action.step (Action.advance fuel) m' with
      | ok progress m₂ =>
          rw [hstep] at hrun
          cases progress with
          | running => exact ih (h.stepped hstep) hrun
          | halted reason => cases hrun
      | error stop m₂ =>
          rw [hstep] at hrun
          cases hrun
          exact ⟨m', h, _, _, hstep⟩

/-- With confined hosts, a run from the entry ends with a fault exactly if
entering does or the step of a machine on the way does. -/
theorem runFault?_iff (hm : m.Fit raises p) :
    (∃ fuel, m.runFault? fuel = some g)
      ↔ (∃ m', Action.enter m = .error (.fault g) m')
        ∨ ∃ m', m.Reaches m' ∧ m'.StepFaults g := by
  have hsome : (∃ fuel, m.runFault? fuel = some g)
      ↔ ∃ fuel m', Action.advance fuel .start m = .error (.fault g) m' := by
    refine exists_congr fun fuel => ?_
    unfold runFault?
    split <;> simp_all
  rw [hsome]
  constructor
  · rintro ⟨fuel, m'', hrun⟩
    cases fuel with
    | zero => cases hrun
    | succ fuel =>
        rw [Action.advance_start_succ] at hrun
        cases henter : Action.enter m with
        | ok _ m' =>
            rw [henter] at hrun
            exact .inr ((Reaches.entered henter).exists_stepFaults hrun)
        | error stop m' =>
            rw [henter] at hrun
            cases hrun
            exact .inl ⟨_, rfl⟩
  · rintro (⟨m', henter⟩ | ⟨m', hreach, reenter, m'', hstep⟩)
    · refine ⟨1, m', ?_⟩
      rw [Action.advance_start_succ, henter]
    · have hrun : Action.advance 1 .run m' = .error (.fault g) m'' := by
        -- confined hosts do not set the machine going, so it does not
        -- matter how they would
        rw [Action.advance_run_succ,
          Action.step_reentry (hreach.placed hm).confined, hstep]
      obtain ⟨fuel, hfuel⟩ := hreach.start_eq hm ⟨1, hrun⟩
      exact ⟨fuel, m'', hfuel⟩

end Machine

end StackMachine
