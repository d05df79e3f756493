/-
The map of names beside the table of functions. A program under construction
holds its functions in the order of their declarations and, apart from them,
the index of each by its name; a declaration adds to both, and calls and the
entry are settled by the map alone. `Indexed` says that the two agree.

What carries the agreement is that a name is refused before anything is added
for it, so that no name is bound twice and the latest binding of a name is the
only one (`lookup_namesOf`). `Indexed.declare` is the step; nothing else
touches the map or the table, and so the agreement holds after any sequence
of statements or requests.
-/
import Mathlib.Data.List.Induction
import StackMachine.Assembly.Source

namespace StackMachine.Assembly

-- ============================================================ the two tables

/-- The map of names that belongs to a table of functions. -/
def namesOf (fs : List Declaration) : List (String × Nat) :=
  (fs.map (·.name)).zipIdx.reverse

/-- One function more is bound to the index behind the others. -/
theorem namesOf_concat (fs : List Declaration) (f : Declaration) :
    namesOf (fs ++ [f]) = (f.name, fs.length) :: namesOf fs := by
  simp [namesOf, List.zipIdx_append]

/-- Where no name occurs twice, its binding is the place where it occurs. -/
theorem lookup_namesOf {fs : List Declaration}
    (h : (fs.map (·.name)).Nodup) (name : String) :
    (namesOf fs).lookup name = fs.findIdx? (·.name == name) := by
  induction fs using List.reverseRecOn with
  | nil => rfl
  | append_singleton fs f ih =>
      rw [List.map_append, List.nodup_append] at h
      obtain ⟨hfs, -, hdisjoint⟩ := h
      rw [namesOf_concat, List.lookup_cons, ih hfs, List.findIdx?_append]
      by_cases hname : name = f.name
      · subst hname
        have hfirst : fs.findIdx? (·.name == f.name) = none := by
          rw [List.findIdx?_eq_none_iff]
          intro g hg
          exact beq_eq_false_iff_ne.mpr
            (hdisjoint g.name (List.mem_map_of_mem hg) f.name
              List.mem_cons_self)
        simp [hfirst]
      · have hne : (name == f.name) = false := beq_eq_false_iff_ne.mpr hname
        have hne' : (f.name == name) = false :=
          beq_eq_false_iff_ne.mpr (Ne.symm hname)
        simp [hne, hne']

namespace Draft

/-- The map of names is the one of the table, and no name is declared
twice. -/
structure Indexed (d : Draft) : Prop where
  names : d.names = namesOf d.functions.toList
  nodup : (d.functions.toList.map (·.name)).Nodup

variable {d d' : Draft} {name : String}

/-- The map finds what a search through the table finds. -/
theorem Indexed.functionIndex?_eq (h : d.Indexed) (name : String) :
    d.functionIndex? name = d.functions.findIdx? (·.name == name) := by
  rw [functionIndex?, h.names, lookup_namesOf h.nodup, ← List.findIdx?_toArray]

/-- A name has no index exactly if no function of the table has it. -/
theorem Indexed.functionIndex?_eq_none_iff (h : d.Indexed) :
    d.functionIndex? name = none
      ↔ name ∉ d.functions.toList.map (·.name) := by
  rw [h.functionIndex?_eq, Array.findIdx?_eq_none_iff]
  simp

/-- An index that is found is one of the table. -/
theorem Indexed.functionIndex?_lt (h : d.Indexed) {n : Nat}
    (hn : d.functionIndex? name = some n) : n < d.functions.size := by
  rw [h.functionIndex?_eq] at hn
  exact (Array.findIdx?_eq_some_iff_getElem.mp hn).1

-- ================================================================= steps

theorem indexed_empty : Indexed {} := ⟨rfl, List.nodup_nil⟩

/-- Whatever leaves the map and the table alone leaves them in agreement. -/
theorem Indexed.of_eq (h : d.Indexed) (hfunctions : d'.functions = d.functions)
    (hnames : d'.names = d.names) : d'.Indexed := by
  constructor
  · rw [hnames, hfunctions]
    exact h.names
  · rw [hfunctions]
    exact h.nodup

end Draft

/-- Where a declared function starts, at a position of the code. -/
def Start.resolve (position : Nat) : Start → Nat ⊕ String
  | .here => .inl position
  | .index n => .inl n
  | .label name => .inr name

namespace Draft

variable {d d' : Draft} {name : String} {params locals : Nat} {start : Start}

/-- A function is declared at the end of the table and bound to its index
there, unless its name is in the table. -/
theorem Indexed.declare_eq (h : d.Indexed) (name : String)
    (params locals : Nat) (start : Start) :
    d.declare name params locals start =
      if name ∈ d.functions.toList.map (·.name) then
        .error (.duplicateFunction name)
      else .ok { d with
        functions := d.functions.push
          { name, start := start.resolve d.code.position, params, locals }
        names := (name, d.functions.size) :: d.names } := by
  unfold Draft.declare
  by_cases hname : name ∈ d.functions.toList.map (·.name)
  · rw [if_pos hname]
    cases hindex : d.functionIndex? name with
    | none => exact absurd hname (h.functionIndex?_eq_none_iff.mp hindex)
    | some index => rfl
  · rw [if_neg hname, h.functionIndex?_eq_none_iff.mpr hname]
    cases start <;> rfl

/-- A declaration keeps the map and the table in agreement. -/
theorem Indexed.declare (h : d.Indexed)
    (hd : d.declare name params locals start = .ok d') : d'.Indexed := by
  rw [h.declare_eq] at hd
  split at hd
  · cases hd
  · next hfresh =>
    cases hd
    constructor
    · rw [Array.toList_push, namesOf_concat, h.names, Array.length_toList]
    · rw [Array.toList_push, List.map_append, List.nodup_append]
      refine ⟨h.nodup, List.pairwise_singleton _ _, fun a ha b hb => ?_⟩
      obtain rfl := List.mem_singleton.mp hb
      rintro rfl
      exact hfresh ha

/-- Binding a label touches neither the map nor the table. -/
theorem Indexed.mark (h : d.Indexed) (hd : d.mark name = .ok d') :
    d'.Indexed := by
  unfold Draft.mark Code.mark at hd
  split at hd
  · cases hd
  · cases hd
    exact h.of_eq rfl rfl

/-- Carrying out a statement keeps the map and the table in agreement. -/
theorem Indexed.apply (h : d.Indexed) {s : Statement}
    (hd : d.apply s = .ok d') : d'.Indexed := by
  cases s with
  | label name => exact h.mark hd
  | function name params locals start => exact h.declare hd
  | constant v =>
      cases hd
      exact h.of_eq rfl rfl
  | entry name =>
      cases hd
      exact h.of_eq rfl rfl
  | instruction opcode operand =>
      cases hd
      cases operand <;> exact h.of_eq rfl rfl

end Draft

end StackMachine.Assembly
