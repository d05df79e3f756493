/-
What the search for reachable instructions marks. A position is covered when
it is marked or lies outside the code. While the search goes on, every place
that a marked instruction leads to is covered or still to be visited
(`Closed`); when nothing is left to visit, the marks are closed under the
flow. The starts of the functions are visited one after the other, and that
marks what one search from all of them does (`reachable_eq_mark`), so whatever
control can flow to from any of them is covered (`covered_entry`,
`covered_successor`).

Only this direction matters to a run: that nothing else is marked is not
needed to know that a run keeps to the marks.
-/
import StackMachine.Verification.Reach

namespace StackMachine.Verification

variable {code : Array Instruction} {pending : List Nat} {marks : Array Bool}

-- ============================================================ the search

/-- The position is marked, or it is outside the code. -/
def Covered (code : Array Instruction) (marks : Array Bool) (k : Nat) : Prop :=
  k < code.size → marks[k]? = some true

/-- What a marked instruction leads to is covered or still to be visited. -/
def Closed (code : Array Instruction) (pending : List Nat)
    (marks : Array Bool) : Prop :=
  ∀ k i, code[k]? = some i → marks[k]? = some true →
    ∀ s ∈ successors k i, s ∈ pending ∨ Covered code marks s

/-- A new mark takes none away. -/
theorem Covered.mark {k : Nat} (h : Covered code marks k) (index : Nat) :
    Covered code (marks.setIfInBounds index true) k := by
  intro hk
  have hmarked := h hk
  by_cases hsame : index = k
  · subst hsame
    have hlt : index < marks.size := (Array.getElem?_eq_some_iff.mp hmarked).1
    simp [hlt]
  · rw [Array.getElem?_setIfInBounds_ne hsame]
    exact hmarked

theorem covered_set {index : Nat} (hlt : index < marks.size) :
    Covered code (marks.setIfInBounds index true) index := by
  intro _
  simp [hlt]

/-- The search takes no mark away. -/
theorem covered_mark {k : Nat} (h : Covered code marks k) :
    Covered code (mark code pending marks) k := by
  fun_induction Verification.mark code pending marks with
  | case1 marks => exact h
  | case2 marks index rest hnone ih => exact ih h
  | case3 marks index rest i hi hunmarked ih => exact ih (h.mark index)
  | case4 marks index rest i hi hmarked ih => exact ih h

/-- A position outside the code needs no visit. -/
theorem Closed.drop {index : Nat} {rest : List Nat}
    (h : Closed code (index :: rest) marks)
    (hindex : Covered code marks index) : Closed code rest marks := by
  intro k i hi hk s hs
  rcases h k i hi hk s hs with hpending | hcovered
  · rcases List.mem_cons.mp hpending with rfl | hrest
    · exact .inr hindex
    · exact .inl hrest
  · exact .inr hcovered

/-- A visit marks a position and puts all that it leads to on the list. -/
theorem Closed.visit {index : Nat} {rest : List Nat} {i : Instruction}
    (h : Closed code (index :: rest) marks) (hi : code[index]? = some i)
    (hlt : index < marks.size) :
    Closed code (successors index i ++ rest)
      (marks.setIfInBounds index true) := by
  intro k j hj hk s hs
  by_cases hsame : index = k
  · subst hsame
    obtain rfl : i = j := Option.some.inj (hi.symm.trans hj)
    exact .inl (List.mem_append_left rest hs)
  · rw [Array.getElem?_setIfInBounds_ne hsame] at hk
    rcases h k j hj hk s hs with hpending | hcovered
    · rcases List.mem_cons.mp hpending with rfl | hrest
      · exact .inr (covered_set hlt)
      · exact .inl (List.mem_append_right _ hrest)
    · exact .inr (hcovered.mark index)

/-- Positions outside the code count as covered. -/
theorem covered_of_ne_false {k : Nat} (hsize : marks.size = code.size)
    (h : marks[k]? ≠ some false) : Covered code marks k := by
  intro hk
  have hlt : k < marks.size := by omega
  rw [Array.getElem?_eq_getElem hlt] at h ⊢
  cases hmark : marks[k] with
  | true => rfl
  | false => exact absurd (congrArg some hmark) h

/-- The search ends with marks that are closed and cover all that was to be
visited. -/
theorem mark_closed (hsize : marks.size = code.size)
    (h : Closed code pending marks) :
    Closed code [] (mark code pending marks)
      ∧ ∀ k ∈ pending, Covered code (mark code pending marks) k := by
  fun_induction Verification.mark code pending marks with
  | case1 marks => exact ⟨h, fun k hk => absurd hk List.not_mem_nil⟩
  | case2 marks index rest hnone ih =>
      -- a position behind the code needs no mark
      have hindex : Covered code marks index := by
        intro hk
        have hout : code.size ≤ index := Array.getElem?_eq_none_iff.mp hnone
        omega
      obtain ⟨hclosed, hrest⟩ := ih hsize (h.drop hindex)
      exact ⟨hclosed, List.forall_mem_cons.mpr ⟨covered_mark hindex, hrest⟩⟩
  | case3 marks index rest i hi hunmarked ih =>
      have hlt : index < marks.size :=
        (Array.getElem?_eq_some_iff.mp hunmarked).1
      have hsize' : (marks.setIfInBounds index true).size = code.size := by
        rw [Array.size_setIfInBounds]
        exact hsize
      obtain ⟨hclosed, hvisited⟩ := ih hsize' (h.visit hi hlt)
      have hrest := (List.forall_mem_append.mp hvisited).2
      exact ⟨hclosed,
        List.forall_mem_cons.mpr ⟨covered_mark (covered_set hlt), hrest⟩⟩
  | case4 marks index rest i hi hmarked ih =>
      have hindex := covered_of_ne_false hsize hmarked
      obtain ⟨hclosed, hrest⟩ := ih hsize (h.drop hindex)
      exact ⟨hclosed, List.forall_mem_cons.mpr ⟨covered_mark hindex, hrest⟩⟩

/-- What is to be visited first is visited as if nothing else were, and the
rest goes on from its marks. -/
theorem mark_append (first second : List Nat) (marks : Array Bool) :
    mark code (first ++ second) marks
      = mark code second (mark code first marks) := by
  fun_induction Verification.mark code first marks with
  | case1 marks => rfl
  | case2 marks index rest hnone ih =>
      rw [List.cons_append, mark, hnone]
      exact ih
  | case3 marks index rest i hi hunmarked ih =>
      rw [List.cons_append, mark, hi]
      simp only [hunmarked, if_true]
      rw [← List.append_assoc]
      exact ih
  | case4 marks index rest i hi hmarked ih =>
      rw [List.cons_append, mark, hi]
      simp only [hmarked, if_false]
      exact ih

-- ============================================================== programs

variable {p : Program}

/-- The searches from one start after the other mark what one search from all
starts together marks. -/
theorem reachable_eq_mark (p : Program) :
    reachable p = mark p.code (p.functions.toList.map (·.entry))
      (Array.replicate p.length false) := by
  unfold reachable
  rw [← Array.foldl_toList]
  generalize Array.replicate p.length false = marks
  induction p.functions.toList generalizing marks with
  | nil => rw [List.map_nil, mark, List.foldl_nil]
  | cons f fs ih =>
      rw [List.foldl_cons, ih, ← mark_append]
      rfl

/-- Before the search nothing is marked, so the marks are closed. -/
theorem reachable_closed (p : Program) :
    Closed p.code [] (reachable p)
      ∧ ∀ k ∈ p.functions.toList.map (·.entry),
        Covered p.code (reachable p) k := by
  rw [reachable_eq_mark]
  refine mark_closed (by simp [Program.length]) ?_
  intro k i hi hk
  simp [Array.getElem?_replicate] at hk

/-- Every function starts at a covered position. -/
theorem covered_entry {n : Nat} {g : Function}
    (hg : p.functions[n]? = some g) :
    Covered p.code (reachable p) g.entry := by
  refine (reachable_closed p).2 g.entry (List.mem_map_of_mem ?_)
  exact Array.mem_toList_iff.mpr (Array.mem_of_getElem? hg)

/-- What a covered instruction leads to is covered. -/
theorem covered_successor {k s : Nat} {i : Instruction}
    (hk : Covered p.code (reachable p) k) (hi : p.code[k]? = some i)
    (hs : s ∈ successors k i) : Covered p.code (reachable p) s := by
  have hmarked := hk (Array.getElem?_eq_some_iff.mp hi).1
  rcases (reachable_closed p).1 k i hi hmarked s hs with hpending | hcovered
  · exact absurd hpending List.not_mem_nil
  · exact hcovered

/-- No covered instruction is reported as unreachable. -/
theorem not_unreachable_of_covered {k : Nat}
    (h : Covered p.code (reachable p) k) :
    .unreachable k ∉ reachDefects p := by
  intro hmem
  obtain ⟨index, hindex, hk⟩ := List.mem_map.mp hmem
  obtain ⟨hrange, hunmarked⟩ := List.mem_filter.mp hindex
  injection hk with hk
  subst hk
  rw [h (List.mem_range.mp hrange)] at hunmarked
  simp at hunmarked

end StackMachine.Verification
