/-
References by name. Calls and jumps are appended with an open operand and
noted by position and name; both are settled the same way, one after the
other, and the first that names nothing is the error. So settling references
comes down to two plain things: the complaints, in order, and the
instructions with every operand filled in as far as its name is known
(`foldlM_settle`; `foldlM_resolve` where every position fits an operand).

The form in which a fold, a map and a sequence of such actions keep
complaints and result apart is `refuse`.
-/
import Mathlib.Data.List.Basic
import StackMachine.Assembly.Draft

namespace StackMachine

-- ============================================================= complaints

section Refuse

variable {ε α β : Type}

/-- The result, unless there are complaints: then the first of them. -/
def refuse (complaints : List ε) (a : α) : Except ε α :=
  match complaints with
  | [] => .ok a
  | e :: _ => .error e

/-- There is a result exactly if there is nothing to complain about. -/
theorem refuse_eq_ok_iff {es : List ε} {a b : α} :
    refuse es a = .ok b ↔ es = [] ∧ a = b := by
  cases es <;> simp [refuse]

/-- The error is the first complaint. -/
theorem refuse_eq_error_iff {es : List ε} {a : α} {e : ε} :
    refuse es a = .error e ↔ es.head? = some e := by
  cases es <;> simp [refuse]

theorem refuse_nil_bind (a : α) (f : α → Except ε β) :
    refuse [] a >>= f = f a :=
  rfl

/-- Complaints of a second action come after those of the first. -/
theorem refuse_bind {es es' : List ε} {a : α} {b : β} {f : α → Except ε β}
    (hf : f a = refuse es' b) : refuse es a >>= f = refuse (es ++ es') b := by
  cases es with
  | nil => exact hf
  | cons e es => rfl

variable {complaint? : α → Option ε} {xs : List α}

/-- The complaint about the first element, if there is one, comes before those
about the others. -/
theorem filterMap_cons_eq (x : α) :
    (x :: xs).filterMap complaint?
      = (complaint? x).toList ++ xs.filterMap complaint? := by
  cases hx : complaint? x with
  | none => rw [List.filterMap_cons_none hx]; rfl
  | some e => rw [List.filterMap_cons_some hx]; rfl

/-- A fold whose every step fails by a complaint about its element fails by
the first complaint about any. -/
theorem foldlM_refuse {f : β → α → Except ε β} {g : β → α → β}
    (h : ∀ b, ∀ x ∈ xs, f b x = refuse (complaint? x).toList (g b x)) (b : β) :
    xs.foldlM f b = refuse (xs.filterMap complaint?) (xs.foldl g b) := by
  induction xs generalizing b with
  | nil => rfl
  | cons x xs ih =>
      have hrest :=
        ih (fun b y hy => h b y (List.mem_cons_of_mem x hy)) (g b x)
      rw [List.foldlM_cons, h b x List.mem_cons_self, filterMap_cons_eq]
      exact refuse_bind hrest

/-- So does a map. -/
theorem mapM_refuse {f : α → Except ε β} {g : α → β}
    (h : ∀ x ∈ xs, f x = refuse (complaint? x).toList (g x)) :
    xs.mapM f = refuse (xs.filterMap complaint?) (xs.map g) := by
  induction xs with
  | nil => rfl
  | cons x xs ih =>
      have hrest := ih fun y hy => h y (List.mem_cons_of_mem x hy)
      have htail : (xs.mapM f >>= fun ys => pure (g x :: ys))
          = refuse (xs.filterMap complaint? ++ []) (g x :: xs.map g) := by
        rw [hrest]
        exact refuse_bind rfl
      rw [List.append_nil] at htail
      rw [List.mapM_cons, h x List.mem_cons_self, filterMap_cons_eq]
      exact refuse_bind htail

end Refuse

namespace Assembly

-- ============================================================= references

section References

variable (target? : String → Option Nat)
  (undefined : String → Nat → BuildError)

/-- What is wrong with a reference: it names nothing, or what it names does
not fit an operand. -/
def unsettled? (ref : Nat × String) : Option BuildError :=
  match target? ref.2 with
  | none => some (undefined ref.2 ref.1)
  | some target =>
    if target < 0x80000000 then none else some (.operandOverflow target)

/-- The complaint about a reference to nothing. -/
def dangling? (ref : Nat × String) : Option BuildError :=
  match target? ref.2 with
  | some _ => none
  | none => some (undefined ref.2 ref.1)

/-- What a reference stands for, as an operand. -/
def targetOperand (name : String) : Int32 :=
  Int32.ofNat ((target? name).getD 0)

/-- The instructions with the operands of some references filled in. -/
def filled (refs : List (Nat × String))
    (is : Array Instruction) : Array Instruction :=
  refs.foldl
    (fun is ref => Code.setOperand is ref.1 (targetOperand target? ref.2)) is

variable {target? undefined} {refs : List (Nat × String)}
  {resolve : Array Instruction → Nat × String →
    Except BuildError (Array Instruction)}

theorem dangling?_eq_none_iff {ref : Nat × String} :
    dangling? target? undefined ref = none
      ↔ ∃ target, target? ref.2 = some target := by
  rw [dangling?]
  cases target? ref.2 <;> simp

theorem unsettled?_eq_none_iff {ref : Nat × String} :
    unsettled? target? undefined ref = none
      ↔ ∃ target, target? ref.2 = some target ∧ target < 0x80000000 := by
  rw [unsettled?]
  cases target? ref.2 <;> simp

/-- A reference is complained about for naming nothing or for what it names
being too large. -/
theorem unsettled?_eq_some_iff {ref : Nat × String} {e : BuildError} :
    unsettled? target? undefined ref = some e ↔
      target? ref.2 = none ∧ undefined ref.2 ref.1 = e ∨
        ∃ target, target? ref.2 = some target ∧ 0x80000000 ≤ target
          ∧ .operandOverflow target = e := by
  rw [unsettled?]
  cases target? ref.2 <;> simp

/-- Settling references one after the other, each by what its name stands
for. -/
theorem foldlM_settle
    (hresolve : ∀ is ref, resolve is ref = match target? ref.2 with
      | none => .error (undefined ref.2 ref.1)
      | some target => (positionOperand target).map fun operand =>
          Code.setOperand is ref.1 operand)
    (is : Array Instruction) :
    refs.foldlM resolve is
      = refuse (refs.filterMap (unsettled? target? undefined))
        (filled target? refs is) := by
  refine foldlM_refuse (fun is ref _ => ?_) is
  rw [hresolve, unsettled?, targetOperand]
  cases target? ref.2 with
  | none => rfl
  | some target =>
      by_cases hlt : target < 0x80000000
      · simp only [positionOperand, if_pos hlt]
        rfl
      · simp only [positionOperand, if_neg hlt]
        rfl

/-- Where every target fits an operand, references to nothing are all that is
wrong. -/
theorem filterMap_unsettled?
    (hfit : ∀ ref ∈ refs, ∀ target, target? ref.2 = some target →
      target < 0x80000000) :
    refs.filterMap (unsettled? target? undefined)
      = refs.filterMap (dangling? target? undefined) := by
  refine List.filterMap_congr fun ref hmem => ?_
  rw [unsettled?, dangling?]
  cases htarget : target? ref.2 with
  | none => rfl
  | some target => exact if_pos (hfit ref hmem target htarget)

/-- Where every target fits, only references to nothing keep the others from
being filled in. -/
theorem foldlM_resolve
    (hresolve : ∀ is ref, resolve is ref = match target? ref.2 with
      | none => .error (undefined ref.2 ref.1)
      | some target => (positionOperand target).map fun operand =>
          Code.setOperand is ref.1 operand)
    (hfit : ∀ ref ∈ refs, ∀ target, target? ref.2 = some target →
      target < 0x80000000)
    (is : Array Instruction) :
    refs.foldlM resolve is
      = refuse (refs.filterMap (dangling? target? undefined))
        (filled target? refs is) := by
  rw [foldlM_settle hresolve, filterMap_unsettled? hfit]

/-- Filling operands in appends nothing. -/
@[simp] theorem size_filled (is : Array Instruction) :
    (filled target? refs is).size = is.size := by
  induction refs generalizing is with
  | nil => rfl
  | cons ref refs ih =>
      show (filled target? refs (Code.setOperand is ref.1 _)).size = is.size
      rw [ih, Code.setOperand, Array.size_modify]

/-- An instruction that no reference is about stays as it is. -/
theorem getElem?_filled_of_not_mem {is : Array Instruction} {k : Nat}
    (h : k ∉ refs.map (·.1)) : (filled target? refs is)[k]? = is[k]? := by
  induction refs generalizing is with
  | nil => rfl
  | cons ref refs ih =>
      rw [List.map_cons, List.mem_cons, not_or] at h
      show (filled target? refs (Code.setOperand is ref.1 _))[k]? = is[k]?
      rw [ih h.2, Code.setOperand, Array.getElem?_modify, if_neg (Ne.symm h.1)]

/-- An instruction that one reference is about gets the operand that this one
stands for. -/
theorem getElem?_filled_of_mem {is : Array Instruction} {k : Nat}
    {name : String} (hnodup : (refs.map (·.1)).Nodup) (h : (k, name) ∈ refs) :
    (filled target? refs is)[k]?
      = is[k]?.map
        fun i => { i with operand := targetOperand target? name } := by
  induction refs generalizing is with
  | nil => exact absurd h List.not_mem_nil
  | cons ref refs ih =>
      obtain ⟨hfresh, hnodup⟩ := List.nodup_cons.mp hnodup
      show (filled target? refs (Code.setOperand is ref.1 _))[k]? = _
      rcases List.mem_cons.mp h with rfl | hmem
      · rw [getElem?_filled_of_not_mem hfresh, Code.setOperand,
          Array.getElem?_modify, if_pos rfl]
      · have hne : ref.1 ≠ k := by
          rintro rfl
          exact hfresh (List.mem_map.mpr ⟨_, hmem, rfl⟩)
        rw [ih hnodup hmem, Code.setOperand, Array.getElem?_modify, if_neg hne]

/-- A further reference behind all others stands at a position of its own. -/
theorem nodup_positions_concat {n : Nat} (name : String)
    (hnodup : (refs.map (·.1)).Nodup) (hlt : ∀ ref ∈ refs, ref.1 < n) :
    ((refs ++ [(n, name)]).map (·.1)).Nodup := by
  rw [List.map_append]
  refine List.nodup_append.mpr ⟨hnodup, List.pairwise_singleton _ _, ?_⟩
  intro a ha b hb
  obtain ⟨ref, hmem, rfl⟩ := List.mem_map.mp ha
  rw [List.mem_singleton.mp hb]
  exact Nat.ne_of_lt (hlt ref hmem)

end References

/-- A jump is resolved by the labels of the code. -/
theorem Code.resolve_eq (c : Code) (is : Array Instruction)
    (ref : Nat × String) :
    c.resolve is ref = match c.label? ref.2 with
      | none => .error (.undefinedLabel ref.2 ref.1)
      | some target => (positionOperand target).map fun operand =>
          setOperand is ref.1 operand := by
  rw [resolve]
  cases c.label? ref.2 <;> rfl

/-- A call is resolved by the map of names. -/
theorem Draft.resolveCall_eq (d : Draft) (is : Array Instruction)
    (ref : Nat × String) :
    d.resolveCall is ref = match d.functionIndex? ref.2 with
      | none => .error (.undefinedFunction ref.2 ref.1)
      | some target => (positionOperand target).map fun operand =>
          Code.setOperand is ref.1 operand := by
  rw [resolveCall]
  cases d.functionIndex? ref.2 <;> rfl

theorem toInt_targetOperand {target? : String → Option Nat} {name : String}
    {n : Nat} (h : target? name = some n) (hlt : n < 0x80000000) :
    (targetOperand target? name).toInt = n := by
  rw [targetOperand, h, Option.getD_some]
  exact Int32.toInt_ofNat_of_lt hlt

end Assembly

end StackMachine
