/-
The search for reachable instructions is exact. The graph is stated on the
instructions themselves: everything but a jump, a return and a halt has an
edge to the next position, and both jumps have one to their target. Reached
positions are those that paths in this graph lead to from the starts of the
functions; a position outside the code has no instruction and so no edge out.

That nothing reached is missed is the closure of the marks, which holds when
nothing is left to visit (`Closed`). That nothing else is marked is kept by
every visit: what is still to be visited is reached, so what it marks is, and
what it puts on the list is one edge further on.
-/
import Mathlib.Logic.Relation
import StackMachine.Proofs.Verification.Marks

namespace StackMachine.Verification

variable {code : Array Instruction} {pending : List Nat} {marks : Array Bool}
  {p : Program}

-- ============================================================= vocabulary

/-- Control can go from the instruction at `a` to `b` without a call or a
return. -/
inductive Edge (code : Array Instruction) (a : Nat) : Nat → Prop
  | next {i : Instruction} (hi : code[a]? = some i)
    (hgoes : i.opcode ≠ .jump ∧ i.opcode ≠ .ret ∧ i.opcode ≠ .halt) :
    Edge code a (a + 1)
  | target {i : Instruction} {b : Nat} (hi : code[a]? = some i)
    (hjumps : i.opcode = .jump ∨ i.opcode = .jumpIfFalse)
    (hb : i.operand.toInt = b) :
    Edge code a b

/-- Some function has a path from its start to the position. -/
def Reached (p : Program) (k : Nat) : Prop :=
  ∃ f ∈ p.functions, Relation.ReflTransGen (Edge p.code) f.entry k

/-- The search follows the edges of the graph. -/
theorem mem_successors_iff {a b : Nat} {i : Instruction}
    (hi : code[a]? = some i) :
    b ∈ successors a i ↔ Edge code a b := by
  constructor
  · intro hb
    have htarget : i.opcode = .jump ∨ i.opcode = .jumpIfFalse →
        b ∈ i.index?.toList →
        Edge code a b := fun hjumps hmem =>
      .target hi hjumps
        (Instruction.index?_eq_some_iff.mp (Option.mem_toList.mp hmem))
    have hnext : (i.opcode ≠ .jump ∧ i.opcode ≠ .ret ∧ i.opcode ≠ .halt) →
        b = a + 1 →
        Edge code a b := by
      rintro hgoes rfl
      exact .next hi hgoes
    -- the opcode decides which of the two ways there are
    unfold successors at hb
    cases hop : i.opcode with
    | halt | ret =>
        rw [hop] at hb
        cases hb
    | jump =>
        rw [hop] at hb
        exact htarget (.inl hop) hb
    | jumpIfFalse =>
        rw [hop] at hb
        rcases List.mem_cons.mp hb with hb | hb
        · exact hnext (by simp [hop]) hb
        · exact htarget (.inr hop) hb
    | _ =>
        rw [hop] at hb
        exact hnext (by simp [hop]) (List.mem_singleton.mp hb)
  · intro hedge
    cases hedge with
    | next hj hgoes =>
        obtain rfl := Option.some.inj (hi.symm.trans hj)
        unfold successors
        split
        · next hop => exact absurd hop hgoes.2.2
        · next hop => exact absurd hop hgoes.2.1
        · next hop => exact absurd hop hgoes.1
        · exact List.mem_cons_self
        · exact List.mem_cons_self
    | target hj hjumps hb =>
        obtain rfl := Option.some.inj (hi.symm.trans hj)
        have hmem : b ∈ i.index?.toList :=
          Option.mem_toList.mpr (Instruction.index?_eq_some_iff.mpr hb)
        unfold successors
        rcases hjumps with hop | hop
        · rw [hop]
          exact hmem
        · rw [hop]
          exact List.mem_cons_of_mem _ hmem

-- ================================================================ soundness

/-- The search marks nothing but what paths lead to from what was marked or to
be visited. -/
theorem of_marked_mark {P : Nat → Prop}
    (hedge : ∀ {a b}, P a → Edge code a b → P b)
    (hpending : ∀ k ∈ pending, P k)
    (hmarks : ∀ k, marks[k]? = some true → P k) :
    ∀ k, (mark code pending marks)[k]? = some true → P k := by
  fun_induction mark code pending marks with
  | case1 marks => exact hmarks
  | case2 marks index rest hnone ih =>
      exact ih (fun k hk => hpending k (List.mem_cons_of_mem index hk)) hmarks
  | case3 marks index rest i hi hunmarked ih =>
      have hindex : P index := hpending index List.mem_cons_self
      refine ih ?_ ?_
      · intro k hk
        rcases List.mem_append.mp hk with hk | hk
        · -- an instruction that is marked sends the search along its edges
          exact hedge hindex ((mem_successors_iff hi).mp hk)
        · exact hpending k (List.mem_cons_of_mem index hk)
      · intro k hk
        by_cases hsame : index = k
        · exact hsame ▸ hindex
        · rw [Array.getElem?_setIfInBounds_ne hsame] at hk
          exact hmarks k hk
  | case4 marks index rest i hi hmarked ih =>
      exact ih (fun k hk => hpending k (List.mem_cons_of_mem index hk)) hmarks

/-- What the search marks is reached, since it starts from nothing else. -/
theorem reached_of_marked {k : Nat} (h : (reachable p)[k]? = some true) :
    Reached p k := by
  rw [reachable_eq_mark] at h
  refine of_marked_mark (P := Reached p) ?_ ?_ ?_ k h
  · rintro a b ⟨f, hf, hpath⟩ hedge
    exact ⟨f, hf, hpath.tail hedge⟩
  · intro start hstart
    obtain ⟨f, hf, rfl⟩ := List.mem_map.mp hstart
    exact ⟨f, Array.mem_toList_iff.mp hf, Relation.ReflTransGen.refl⟩
  · intro k hk
    simp [Array.getElem?_replicate] at hk

-- ============================================================= completeness

/-- By induction on the path, what is reached is marked. -/
theorem covered_of_reached {k : Nat} (h : Reached p k) :
    Covered p.code (reachable p) k := by
  obtain ⟨f, hf, hpath⟩ := h
  induction hpath with
  | refl =>
      obtain ⟨n, hn⟩ := Array.mem_iff_getElem?.mp hf
      exact covered_entry hn
  | tail _ hedge ih =>
      obtain ⟨i, hi⟩ : ∃ i, p.code[_]? = some i := by
        cases hedge with
        | next hi => exact ⟨_, hi⟩
        | target hi => exact ⟨_, hi⟩
      exact covered_successor ih hi ((mem_successors_iff hi).mpr hedge)

/-- The marked positions of the code are the reached ones. -/
theorem marked_iff_reached {k : Nat} (hk : k < p.length) :
    (reachable p)[k]? = some true ↔ Reached p k :=
  ⟨reached_of_marked, fun h => covered_of_reached h hk⟩

/-- For every program, the positions that are reported as unreachable are
those in the code to which no path leads from the start of any function, each
once and in increasing order. -/
theorem unreachable_exactly (p : Program) :
    ∃ unreached : List Nat, reachDefects p = unreached.map .unreachable
      ∧ unreached.Pairwise (· < ·)
      ∧ ∀ k, k ∈ unreached ↔ k < p.length ∧ ¬ Reached p k := by
  refine ⟨_, rfl, List.Pairwise.filter _ List.pairwise_lt_range, fun k => ?_⟩
  rw [List.mem_filter, List.mem_range, bne_iff_ne]
  refine and_congr_right fun hk => ?_
  rw [ne_eq, marked_iff_reached hk]

end StackMachine.Verification
