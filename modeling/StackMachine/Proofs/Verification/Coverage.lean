/-
The search for reachable instructions covers every run. It follows jumps and
goes on behind everything else, knows nothing of callers and returns, and
starts from all functions alike. A run is more particular, but every frame of
it stands at a covered position: a new one because its function starts there,
the running one because it moves along the edges that the search followed, and
a suspended one because it waits behind its call. So no instruction that is
reported as unreachable is ever dispatched, whatever the program.

One edge of a frame's flow is missing from the search, the one from behind a
halt. No run follows it: the step that executes a halt ends the run.
-/
import StackMachine.Proofs.Machine.RunLog
import StackMachine.Proofs.Verification.Marks

namespace StackMachine

namespace Action

variable {reenter : Reentry} {m : Machine} {f : Frame} {rest : Array Frame}
  {i : Instruction}

-- ================================================================= halts

/-- The machine does not go on behind a halt. -/
theorem dispatch_halt (hop : i.opcode = .halt)
    (htop : m.calls.items = rest.push f) (depth : Nat) :
    (dispatch reenter f.ip depth i).Ensures m
      (fun progress _ => progress ≠ .running)
      fun _ _ => True := by
  have hexecute : execute reenter f.ip i m = .ok .halt m := by
    unfold execute
    rw [hop]
    rfl
  refine Ensures.bind (fun t m' => t = .halt ∧ m' = m)
    (.ok hexecute ⟨rfl, rfl⟩) ?_
  intro t m' ht
  obtain ⟨rfl, rfl⟩ := ht
  refine Ensures.bind (fun _ m' => m'.haltRequested)
    (.ok (carryOut_halt htop depth) rfl) ?_
  intro _ m'' hhalt
  unfold Ensures settle
  simp [hhalt]

/-- A run does not go on from a halt. -/
theorem step_halt {m' : Machine} (hop : i.opcode = .halt)
    (htop : m.calls.items = rest.push f)
    (hi : m.program.code[f.ip]? = some i) :
    step reenter m ≠ .ok .running m' := by
  have hiterate : (iterate reenter).Ensures { m with status := .running }
      (fun progress _ => progress ≠ .running) fun _ _ => True := by
    refine .standing htop hi (by simp) ?_
    apply dispatch_halt hop
    exact htop
  have hstep : (step reenter).Ensures m (fun progress _ => progress ≠ .running)
      fun _ _ => True :=
    hiterate.step (fun _ h => h) (fun _ _ h => h) fun _ _ h => h
  intro hrun
  exact hstep.of_ok hrun rfl

end Action

-- ============================================================ the frames

/-- Every frame stands at a position that the search covers. -/
def Machine.CoveredFrames (p : Program) (m : Machine) : Prop :=
  ∀ f ∈ m.calls.items,
    Verification.Covered p.code (Verification.reachable p) f.ip

namespace Machine

variable {raises : Fault → Prop} {p : Program} {m m₁ m₂ : Machine}

/-- A step that does not end the run leads from covered positions to covered
ones. -/
theorem CoveredFrames.stepped {reenter : Reentry} (h : m₁.CoveredFrames p)
    (hfit : m₁.Fit raises p)
    (hstep : Action.step reenter m₁ = .ok .running m₂) :
    m₂.CoveredFrames p := by
  have hmove := ((Action.step_ensures hfit.confined).of_ok hstep).move
  rw [hfit.program] at hmove
  refine hmove.forall ?_ ?_ h
  · intro rest f ip locals htop hf hflow _
    cases hflow with
    | on hi hb => exact Verification.covered_successor hf hi hb
    | resumed hi hhalt =>
        rw [← hfit.program] at hi
        exact absurd hstep (Action.step_halt hhalt htop hi)
  · intro n g args returnIp hg _
    exact Verification.covered_entry hg

/-- By induction on the run, its frames stand where the search has marked. -/
theorem Reaches.coveredFrames (hm : m.Fit raises p) (h : m.Reaches m₁) :
    m₁.CoveredFrames p := by
  induction h with
  | entered henter =>
      have hentered : Action.enter.Ensures m (fun _ m' => m'.CoveredFrames p)
          fun _ _ => True := by
        refine Action.enter_ensures ?_ fun _ _ _ _ => trivial
        intro m' _ _ hcalls f hf
        rw [hcalls, hm.program] at hf
        obtain rfl := Array.mem_singleton.mp hf
        exact Verification.covered_entry p.functions_entry
      exact hentered.of_ok henter
  | stepped hreach hstep ih => exact ih.stepped (hreach.placed hm).toFit hstep

end Machine

namespace Verification

/-- No instruction that is reported as unreachable is dispatched in a run from
the entry: not in a verified program and not in any other, whatever the limits
and whatever the observer and the hosts do with the operand stack and the halt
flag, however far the run is followed. -/
theorem dispatched_not_unreachable {raises : Fault → Prop} {m : Machine}
    (hm : m.Confined raises) (sink : Nat → Bool) (fuel : Nat) {index : Nat}
    {i : Instruction} {n : Nat} (hdispatched : .instruction index i n
      ∈ ((Action.advance fuel .start).leaves (m.watched sink)).events) :
    .unreachable index ∉ reachDefects m.program := by
  have hfit : (m.watched sink).Fit raises m.program := ⟨rfl, hm⟩
  obtain ⟨before, after, hsplit⟩ := List.append_of_mem hdispatched
  obtain ⟨m₁, f, hreach, -, htop, rfl, -⟩ :=
    (Machine.start_truthful hm sink fuel before _ after hsplit).instruction
      index i n rfl
  refine not_unreachable_of_covered (hreach.coveredFrames hfit f ?_)
  exact Array.mem_of_back? htop

/-- Jumps over an instruction to a call, and has another instruction behind
the halt at its end. -/
def skipping : Program where
  constants := #[]
  code := #[{ opcode := .jump, operand := 2 }, { opcode := .nop },
    { opcode := .call, operand := 1 }, { opcode := .halt }, { opcode := .nop },
    { opcode := .ret }]
  functions := #[⟨"main", 0, 0, 0⟩, ⟨"back", 5, 0, 0⟩]
  entry := 0
  entry_lt := Nat.zero_lt_two

/-- The run comes to the last instruction, in the function that is called, and
passes over the two that are reported. -/
theorem skipping_dispatched :
    .instruction 5 { opcode := .ret } 0
        ∈ ((Action.advance 6 .start).leaves
          ((Machine.new skipping).watched fun _ => false)).events
      ∧ .unreachable 5 ∉ reachDefects skipping
      ∧ reachDefects skipping = [.unreachable 1, .unreachable 4] := by
  have hconfined : (Machine.new skipping).Confined fun _ => False := by
    intro entry hmem
    cases hmem
  have hdispatched : .instruction 5 { opcode := .ret } 0
      ∈ ((Action.advance 6 .start).leaves
        ((Machine.new skipping).watched fun _ => false)).events := by
    decide +kernel
  have hreachable : reachable skipping
      = #[true, false, true, true, false, true] := by
    simp [reachable, mark, successors, skipping, Program.length,
      Instruction.index?]
    decide
  refine ⟨hdispatched,
    dispatched_not_unreachable hconfined (fun _ => false) 6 hdispatched, ?_⟩
  unfold reachDefects
  rw [hreachable]
  rfl

end Verification

end StackMachine
