/-
Soundness of verification: the machine never finds fault with the form of a
verified program. However long it runs and however often it is halted and
set going again, it comes across no reserved opcode, no constant or function
that is not there, and no counter outside the code.

Of the three passes only the ranges matter, and of the frames only where
they stand. The flow of verified code keeps between the first instruction
and the position right behind the last (`flow_le_length`), so a frame that
is placed is in range (`ip_le_length`), suspended callers included.
-/
import StackMachine.Proofs.Verification.Findings

namespace StackMachine

/-- Causes that lie in the form of the program: its opcodes, its indices into
the tables and its jumps. -/
def Cause.isMalformed : Cause → Bool
  | .unknownOpcode _ | .invalidConstant .. | .invalidFunction ..
  | .corruptedCounter .. => true
  | _ => false

/-- What may go wrong in any program does not lie in its form. -/
theorem Cause.isMalformed_of_isOrdinary {c : Cause} (h : c.isOrdinary) :
    c.isMalformed = false := by
  cases c <;> first | rfl | cases h

namespace Verification.Verified

variable {p : Program} (h : Verified p)

include h

-- ======================================================= where frames stand

/-- Verified code leads from any instruction into the code or right behind
it. -/
theorem flow_le_length {a b : Nat} (hflow : Flow p a b) : b ≤ p.length := by
  have hnext : ∀ {i : Instruction}, p.code[a]? = some i → a + 1 ≤ p.length :=
    fun hi => (Array.getElem?_eq_some_iff.mp hi).1
  cases hflow with
  | resumed hi => exact hnext hi
  | @on i _ hi hb =>
      have htarget : i.opcode.operandKind = .target →
          ∀ n ∈ i.index?.toList, n ≤ p.length := by
        intro hkind n hn
        obtain ⟨target, hindex, hle⟩ := h.targets hi hkind
        rw [hindex] at hn
        obtain rfl := List.mem_singleton.mp hn
        exact hle
      unfold successors at hb
      cases hop : i.opcode with
      | jump =>
          rw [hop] at hb htarget
          exact htarget rfl b hb
      | jumpIfFalse =>
          rw [hop] at hb htarget
          rcases List.mem_cons.mp hb with rfl | hb
          · exact hnext hi
          · exact htarget rfl b hb
      | halt | ret =>
          rw [hop] at hb
          cases hb
      | _ =>
          rw [hop] at hb
          obtain rfl := List.mem_singleton.mp hb
          exact hnext hi

/-- By induction on the flow, the same holds however far it leads. -/
theorem leads_le_length {a b : Nat} (hleads : Leads p a b)
    (ha : a ≤ p.length) : b ≤ p.length := by
  cases hleads with
  | refl => exact ha
  | tail _ hflow => exact h.flow_le_length hflow

/-- A placed frame of a verified program is in the code or right behind it. -/
theorem ip_le_length {f : Frame} (hf : f.Placed p) : f.ip ≤ p.length := by
  obtain ⟨g, hg, -, hleads⟩ := hf
  exact h.leads_le_length hleads (h.entries hg)

-- ================================================================== faults

/-- No instruction of a verified program is to blame for a malformed
index or opcode. -/
theorem blame {raises : Fault → Prop} {f : Frame} {i : Instruction} {g : Fault}
    (hi : p.code[f.ip]? = some i) (hb : Blame raises p f i g)
    (hg : ¬ raises g) :
    g.cause.isMalformed = false := by
  cases hb with
  | host hraised => exact absurd hraised hg
  | ordinary hordinary => exact Cause.isMalformed_of_isOrdinary hordinary
  | opcode hreserved =>
      rw [h.opcodes hi] at hreserved
      cases hreserved
  | constant hop hout =>
      obtain ⟨n, hn, hlt⟩ := h.constants hi (by rw [hop]; rfl)
      exact absurd hlt (Nat.not_lt.mpr (hout n hn))
  | function hop hout =>
      obtain ⟨n, hn, hlt⟩ := h.functions hi (by rw [hop]; rfl)
      exact absurd hlt (Nat.not_lt.mpr (hout n hn))
  | target hop hnone =>
      obtain ⟨n, hn, -⟩ := h.targets hi (beq_iff_eq.mp hop)
      rw [hnone] at hn
      cases hn
  | slot => rfl

/-- Nor is a machine whose frames are all placed. -/
theorem blamed {raises : Fault → Prop} {m : Machine} {g : Fault}
    (hm : m.Placed raises p) (hb : m.Blamed raises g) (hg : ¬ raises g) :
    g.cause.isMalformed = false := by
  obtain rfl := hm.program
  cases hb with
  | counter htop hip _ =>
      exact absurd hip (Nat.not_lt.mpr (h.ip_le_length (hm.running htop)))
  | instruction htop hi hblame => exact h.blame hi hblame hg

end Verification.Verified

/-- In every session of a machine with a verified program and confined hosts
that begins with a start, a fault that the hosts did not raise does not lie in
the form of the program. The machine may have any limits and any observer, and
the session may go on after a halt, a fault or for want of fuel. -/
theorem Verification.faults_not_malformed {m : Machine}
    (hp : verify m.program = []) {raises : Fault → Prop}
    (hm : m.Confined raises) (fuel : Nat) (requests : List Session.Request) :
    ∀ g ∈ Session.faults (.advance .start fuel :: requests) m,
      ¬ raises g → g.cause.isMalformed = false := by
  intro g hmem
  have hv := verified_of_verify hp
  have hinv : Session.Invariant (Machine.Fit raises m.program)
      (Machine.Placed raises m.program)
      fun g => ¬ raises g → g.cause.isMalformed = false :=
    Session.placed_invariant (fun hg _ => Cause.isMalformed_of_isOrdinary hg)
      fun hplaced hblamed hg => hv.blamed hplaced hblamed hg
  exact hinv.faults_satisfy_of_start fuel requests ⟨rfl, hm⟩ hmem

/-- A program that halts at once and, when it is resumed, runs on into another
function, which calls the host and then adds what is not there. -/
def haltThenAdd : Program where
  constants := #[]
  code :=
    #[{ opcode := .halt }, { opcode := .syscall, operand := 1 },
      { opcode := .add }]
  functions := #[⟨"main", 0, 0, 0⟩, ⟨"rest", 1, 0, 0⟩]
  entry := 0
  entry_lt := Nat.zero_lt_two

/-- The fault of a host that takes a system call for an opcode, the first time
it is called. -/
def bogusFault : Fault := ⟨1, .unknownOpcode 1⟩

def haltThenAddMachine : Machine :=
  (Machine.new haltThenAdd).register 1
    (.routine (fun count => if count = 0 then .raise bogusFault else .done) 0)

/-- Nothing is found wrong with its program. -/
theorem Verification.verify_haltThenAdd : verify haltThenAdd = [] := by
  have hreachable : reachable haltThenAdd = #[true, true, true] := by
    simp [reachable, mark, successors, haltThenAdd, Program.length]
    decide
  unfold verify reachDefects
  rw [hreachable]
  decide

/-- The host's fault is the host's; the machine's own is not malformed. -/
theorem Verification.faults_haltThenAdd :
    Session.faults
        [.advance .start 9, .clearHalt, .advance .run 9, .advance .run 9]
        haltThenAddMachine = [bogusFault, ⟨2, .stackUnderflow⟩]
      ∧ ∀ g ∈ Session.faults
          [.advance .start 9, .clearHalt, .advance .run 9, .advance .run 9]
          haltThenAddMachine,
        ¬ g = bogusFault → g.cause.isMalformed = false := by
  have hp : verify haltThenAddMachine.program = [] := verify_haltThenAdd
  have hm : haltThenAddMachine.Confined (· = bogusFault) := by
    intro entry hmem
    obtain rfl := List.mem_singleton.mp hmem
    intro count
    show Routine.Confined _ (if count = 0 then _ else _)
    split
    · exact rfl
    · exact trivial
  exact ⟨by decide +kernel, faults_not_malformed hp hm 9 _⟩

end StackMachine
