/-
What the absence of findings says. Verification lists defects; a program
without any has every function start in range, no reserved opcode, and every
operand in the range that goes with its kind. `Verified` collects what the
machine relies on. Reachability and the unused fields are left out, since no
execution depends on them.
-/
import StackMachine.Proofs.Machine.Placed
import StackMachine.Verification.Verify

namespace StackMachine

namespace Verification

variable {p : Program} {k : Nat} {i : Instruction}

/-- The check of an operand asks for an index below the bound. -/
theorem operandBelow_iff {bound : Nat} :
    operandBelow i bound = true ↔ ∃ n, i.index? = some n ∧ n < bound := by
  unfold operandBelow
  cases i.index? with
  | none => simp
  | some n => simp

/-- A pass over all instructions finds nothing only if it finds nothing at
each. -/
theorem perInstruction_eq_nil {check : Nat → Instruction → List Defect}
    (h : perInstruction p check = []) (hi : p.code[k]? = some i) :
    check k i = [] := by
  have hmem : (i, k) ∈ p.code.toList.zipIdx := by
    rw [List.mk_mem_zipIdx_iff_getElem?, Array.getElem?_toList]
    exact hi
  exact List.flatMap_eq_nil_iff.mp h (i, k) hmem

/-- What a program without defects promises the machine. -/
structure Verified (p : Program) : Prop where
  entries : ∀ {n : Nat} {f : Function}, p.functions[n]? = some f →
    f.entry ≤ p.length
  opcodes : ∀ {k : Nat} {i : Instruction}, p.code[k]? = some i →
    i.opcode.isReserved = false
  constants : ∀ {k : Nat} {i : Instruction}, p.code[k]? = some i →
    i.opcode.operandKind = .constant →
    ∃ n, i.index? = some n ∧ n < p.constants.size
  functions : ∀ {k : Nat} {i : Instruction}, p.code[k]? = some i →
    i.opcode.operandKind = .function →
    ∃ n, i.index? = some n ∧ n < p.functions.size
  targets : ∀ {k : Nat} {i : Instruction}, p.code[k]? = some i →
    i.opcode.operandKind = .target → ∃ n, i.index? = some n ∧ n ≤ p.length
  slots : ∀ {k : Nat} {i : Instruction}, p.code[k]? = some i →
    i.opcode.operandKind = .slot →
    ∃ n o f, i.index? = some n ∧ p.owner? k = some (o, f) ∧ n < f.slots

/-- An operand without a defect is below the bound of its kind. -/
theorem operandBelow_of_eq_nil {bound : Nat} {d : Defect}
    (h : (if operandBelow i bound then [] else [d]) = []) :
    ∃ n, i.index? = some n ∧ n < bound := by
  by_cases hbelow : operandBelow i bound
  · exact operandBelow_iff.mp hbelow
  · rw [if_neg hbelow] at h
    cases h

/-- An instruction without a defect of its slot has an owner that has the
slot. -/
theorem slot_of_eq_nil (h : slotDefects p k i = []) :
    ∃ n o f, i.index? = some n ∧ p.owner? k = some (o, f) ∧ n < f.slots := by
  unfold slotDefects at h
  cases howner : p.owner? k with
  | none =>
      rw [howner] at h
      cases h
  | some owner =>
      rw [howner] at h
      obtain ⟨n, hn, hlt⟩ := operandBelow_of_eq_nil h
      exact ⟨n, owner.1, owner.2, hn, rfl, hlt⟩

/-- Where nothing is found, every check has passed at every instruction. -/
theorem verified_of_verify (h : verify p = []) : Verified p := by
  obtain ⟨⟨⟨-, hoperands⟩, hentries, hform⟩, -⟩ :
      (((_ ∧ perInstruction p (operandDefects p) = []) ∧ _
        ∧ perInstruction p formDefects = [])
        ∧ reachDefects p = []) := by
    simpa only [verify, boundsDefects, structureDefects,
      List.append_eq_nil_iff] using h
  have hoperand : ∀ {k : Nat} {i : Instruction}, p.code[k]? = some i →
      operandDefects p k i = [] := fun hi => perInstruction_eq_nil hoperands hi
  refine ⟨?_, ?_, ?_, ?_, ?_, ?_⟩
  · -- an entry behind the code would have been reported
    intro n f hf
    have hmem : (f, n) ∈ p.functions.toList.zipIdx := by
      rw [List.mk_mem_zipIdx_iff_getElem?, Array.getElem?_toList]
      exact hf
    have hnone := List.flatMap_eq_nil_iff.mp hentries (f, n) hmem
    by_cases hle : f.entry ≤ p.length
    · exact hle
    · rw [entryDefects, if_neg hle] at hnone
      cases hnone
  · intro k i hi
    have hnone :=
      (List.append_eq_nil_iff.mp (perInstruction_eq_nil hform hi)).1
    cases hreserved : i.opcode.isReserved with
    | false => rfl
    | true =>
        rw [if_pos hreserved] at hnone
        cases hnone
  · intro k i hi hop
    have hnone := hoperand hi
    rw [operandDefects, hop] at hnone
    exact operandBelow_of_eq_nil hnone
  · intro k i hi hop
    have hnone := hoperand hi
    rw [operandDefects, hop] at hnone
    exact operandBelow_of_eq_nil hnone
  · intro k i hi hop
    have hnone := hoperand hi
    rw [operandDefects, hop] at hnone
    obtain ⟨n, hn, hlt⟩ := operandBelow_of_eq_nil hnone
    exact ⟨n, hn, Nat.lt_succ_iff.mp hlt⟩
  · intro k i hi hop
    have hnone := hoperand hi
    rw [operandDefects, hop] at hnone
    exact slot_of_eq_nil hnone

end Verification

end StackMachine
