/-
Labels in code under construction. A history of requests says which
instructions were appended and where labels were marked; what the code holds
after it has a closed form (`instructions_after`, `jumps_after`,
`label?_after`), which is shown request by request. Finishing then settles
the jumps in one pass, and what it gives is what two passes over the history
give: first the position of each label, then the operands
(`finish_eq_refuse`).

A label counts from where it was first marked, a jump may stand on either
side of that, and a second mark is refused and leaves everything as it was.
-/
import Mathlib.Data.List.Forall2
import Mathlib.Data.List.Induction
import StackMachine.Proofs.Assembly.References

namespace StackMachine.Assembly.Code

-- ============================================================= histories

/-- An instruction as it is appended: whole, or with a label for its
operand. -/
inductive Item where
  /-- An instruction without operands has zero in both fields. -/
  | whole (i : Instruction)
  | jump (opcode : Opcode) (label : String)
  deriving DecidableEq

/-- What code under construction may be asked for. -/
inductive Request where
  | append (item : Item)
  | mark (label : String)
  deriving DecidableEq

/-- What a request leaves. One that is refused changes nothing. -/
def serve (c : Code) : Request → Code
  | .append (.whole i) => c.emit i
  | .append (.jump opcode label) => c.emitJump opcode label
  | .mark label =>
    match c.mark label with
    | .ok c' => c'
    | .error _ => c

/-- The code after a history. -/
def after (rs : List Request) : Code := rs.foldl serve {}

/-- The instructions that a history appends. -/
def appended (rs : List Request) : List Item :=
  rs.filterMap fun
    | .append item => some item
    | .mark _ => none

/-- A label is first marked behind `n` instructions. -/
def MarkedAt (rs : List Request) (label : String) (n : Nat) : Prop :=
  ∃ before rest, rs = before ++ .mark label :: rest ∧ .mark label ∉ before
    ∧ (appended before).length = n

/-- An instruction is the one that was appended, with the position of its
label for the operand of a jump. -/
def Settles (rs : List Request) : Item → Instruction → Prop
  | .whole i, j => j = i
  | .jump opcode label, j =>
    ∃ n, MarkedAt rs label n ∧ j.opcode = opcode
      ∧ j.operand.toInt = n ∧ j.spare = 0

/-- A complaint for each jump to a label that is never marked, in the
order of the jumps. -/
def undefinedLabels (rs : List Request) : List BuildError :=
  (appended rs).zipIdx.filterMap fun
    | (.jump _ label, index) =>
      if .mark label ∈ rs then none else some (.undefinedLabel label index)
    | (.whole _, _) => none

-- ============================================================ closed form

/-- The instruction that is appended for an item, with its operand still
open. -/
def Item.opened : Item → Instruction
  | whole i => i
  | jump opcode _ => { opcode }

/-- Where the jumps of a list of instructions stand and what they name. -/
def jumpsOf (items : List Item) : List (Nat × String) :=
  items.zipIdx.filterMap fun
    | (.jump _ label, index) => some (index, label)
    | (.whole _, _) => none

variable {rs : List Request} {label : String}

/-- A history with one more request is that history, and then the request. -/
theorem after_append_singleton (rs : List Request) (r : Request) :
    after (rs ++ [r]) = (after rs).serve r := by
  rw [after, after, List.foldl_append, List.foldl_cons, List.foldl_nil]

@[simp] theorem appended_append (rs rs' : List Request) :
    appended (rs ++ rs') = appended rs ++ appended rs' := List.filterMap_append

/-- An item at the end adds a jump at the position behind the others, if it
is one. -/
theorem jumpsOf_append_singleton (items : List Item) (item : Item) :
    jumpsOf (items ++ [item]) = jumpsOf items ++ (match item with
      | .jump _ label => [(items.length, label)]
      | .whole _ => []) := by
  rw [jumpsOf, jumpsOf, List.zipIdx_append,
    List.filterMap_append, Nat.zero_add]
  cases item <;> rfl

/-- Marking a label leaves the instructions and the jumps. -/
theorem serve_mark (c : Code) (label : String) :
    (c.serve (.mark label)).instructions = c.instructions
      ∧ (c.serve (.mark label)).jumps = c.jumps := by
  rw [serve, mark]
  cases c.label? label with
  | none => exact ⟨rfl, rfl⟩
  | some n => exact ⟨rfl, rfl⟩

/-- The instructions are those that were appended, with the operands of the
jumps open. -/
theorem instructions_after (rs : List Request) :
    (after rs).instructions = ((appended rs).map Item.opened).toArray := by
  induction rs using List.reverseRecOn with
  | nil => rfl
  | append_singleton rs r ih =>
      rw [after_append_singleton, appended_append]
      match r with
      | .append (.whole i) => simp [serve, emit, ih, appended, Item.opened]
      | .append (.jump opcode label) =>
        simp [serve, emitJump, ih, appended, Item.opened]
      | .mark label => simp [serve_mark, ih, appended]

theorem position_after (rs : List Request) :
    (after rs).position = (appended rs).length := by
  rw [position, instructions_after, List.size_toArray, List.length_map]

/-- The jumps noted are those that were appended, where they stand. -/
theorem jumps_after (rs : List Request) :
    (after rs).jumps = (jumpsOf (appended rs)).toArray := by
  induction rs using List.reverseRecOn with
  | nil => rfl
  | append_singleton rs r ih =>
      have hposition := position_after rs
      rw [after_append_singleton, appended_append]
      match r with
      | .append (.whole i) =>
        simp [serve, emit, ih, appended, jumpsOf_append_singleton]
      | .append (.jump opcode label) =>
          simp [serve, emitJump, ih, hposition, appended,
            jumpsOf_append_singleton]
      | .mark label => simp [serve_mark, ih, appended]

-- ================================================================= marks

/-- A label is marked somewhere exactly if a request marks it, and then it has
a first mark. -/
theorem exists_markedAt_iff :
    (∃ n, MarkedAt rs label n) ↔ .mark label ∈ rs := by
  constructor
  · rintro ⟨n, before, rest, rfl, -, -⟩
    exact List.mem_append_right _ List.mem_cons_self
  · intro hmem
    obtain ⟨before, rest, hrs, hfirst⟩ := List.eq_append_cons_of_mem hmem
    exact ⟨_, before, rest, hrs, hfirst, rfl⟩

/-- A label is marked behind no more instructions than there are. -/
theorem MarkedAt.le {n : Nat} (h : MarkedAt rs label n) :
    n ≤ (appended rs).length := by
  obtain ⟨before, rest, rfl, -, rfl⟩ := h
  rw [appended_append, List.length_append]
  exact Nat.le_add_right _ _

/-- What finds the first mark of a label finds nothing exactly if there is
none. -/
theorem eq_none_iff_not_marked {found : Option Nat}
    (h : ∀ n, found = some n ↔ MarkedAt rs label n) :
    found = none ↔ .mark label ∉ rs := by
  rw [← exists_markedAt_iff, Option.eq_none_iff_forall_ne_some, not_exists]
  simp only [ne_eq, h]

/-- A further request marks a label that was not marked, and moves no
other. -/
theorem markedAt_append_singleton {r : Request} {n : Nat} :
    MarkedAt (rs ++ [r]) label n ↔
      MarkedAt rs label n ∨ r = .mark label ∧ .mark label ∉ rs
        ∧ (appended rs).length = n := by
  constructor
  · rintro ⟨before, rest, heq, hfirst, hn⟩
    rcases List.eq_nil_or_concat rest with rfl | ⟨rest, last, rfl⟩
    · obtain ⟨rfl, hr⟩ := List.append_inj' heq rfl
      exact .inr ⟨(List.cons.inj hr).1, hfirst, hn⟩
    · rw [List.concat_eq_append, ← List.cons_append,
        ← List.append_assoc] at heq
      exact .inl ⟨before, rest, (List.append_inj' heq rfl).1, hfirst, hn⟩
  · rintro (⟨before, rest, rfl, hfirst, hn⟩ | ⟨rfl, hfirst, hn⟩)
    · exact ⟨before, rest ++ [r],
        by rw [List.append_assoc, List.cons_append], hfirst, hn⟩
    · exact ⟨rs, [], rfl, hfirst, hn⟩

/-- Labels are bound where they were first marked. -/
theorem label?_after {n : Nat} :
    (after rs).label? label = some n ↔ MarkedAt rs label n := by
  induction rs using List.reverseRecOn generalizing label n with
  | nil =>
      refine iff_of_false nofun ?_
      rintro ⟨before, rest, hnil, -, -⟩
      exact absurd hnil
        (List.append_ne_nil_of_right_ne_nil _ (List.cons_ne_nil _ _)).symm
  | append_singleton rs r ih =>
      have hnone : ∀ {l}, (after rs).label? l = none ↔ .mark l ∉ rs :=
        eq_none_iff_not_marked fun _ => ih
      rw [after_append_singleton, markedAt_append_singleton, ← ih]
      match r with
      | .append (.whole i) => simp [serve, emit, label?]
      | .append (.jump opcode l) => simp [serve, emitJump, label?]
      | .mark l =>
          rw [serve, mark, ← hnone]
          cases hbound : (after rs).label? l with
          | some m =>
              -- the mark is refused: it would have to be the
              -- first of its label
              refine ⟨.inl, ?_⟩
              rintro (h | ⟨hl, hfresh, -⟩)
              · exact h
              · cases hl
                rw [hbound] at hfresh
                cases hfresh
          | none =>
              show ((l, (after rs).position) :: (after rs).labels).lookup label
                = _ ↔ _
              rw [List.lookup_cons, position_after]
              by_cases hl : label = l
              · subst hl
                simp [hbound]
              · have hne : (label == l) = false := beq_eq_false_iff_ne.mpr hl
                have hmark : Request.mark l ≠ .mark label :=
                  fun h => hl (Request.mark.inj h).symm
                simp [hne, hmark, label?]

/-- A label is unbound exactly if it was never marked. -/
theorem label?_after_eq_none :
    (after rs).label? label = none ↔ .mark label ∉ rs :=
  eq_none_iff_not_marked fun _ => label?_after

/-- A label is refused exactly if it was marked before. -/
theorem mark_after_eq_error :
    (after rs).mark label = .error (.duplicateLabel label)
      ↔ .mark label ∈ rs := by
  rw [← not_iff_not, ← label?_after_eq_none, mark]
  cases (after rs).label? label <;> simp

-- ================================================================= jumps

/-- A noted jump is an item that names the label, at the index where it
stands. -/
theorem mem_jumpsOf {items : List Item} {index : Nat} :
    (index, label) ∈ jumpsOf items
      ↔ ∃ opcode, items[index]? = some (.jump opcode label) := by
  rw [jumpsOf, List.mem_filterMap]
  constructor
  · rintro ⟨⟨item, k⟩, hmem, heq⟩
    match item with
    | .whole i => cases heq
    | .jump opcode l =>
        cases heq
        exact ⟨opcode, List.mem_zipIdx_iff_getElem?.mp hmem⟩
  · rintro ⟨opcode, hitem⟩
    exact ⟨(.jump opcode label, index),
      List.mem_zipIdx_iff_getElem?.mpr hitem, rfl⟩

/-- No two jumps stand at one position. -/
theorem nodup_jumpsOf (items : List Item) :
    ((jumpsOf items).map (·.1)).Nodup := by
  induction items using List.reverseRecOn with
  | nil => exact List.nodup_nil
  | append_singleton items item ih =>
      rw [jumpsOf_append_singleton]
      match item with
      | .whole i => simpa using ih
      | .jump opcode label =>
          refine nodup_positions_concat label ih fun ⟨index, l⟩ hmem => ?_
          obtain ⟨op, hitem⟩ := mem_jumpsOf.mp hmem
          exact (List.getElem?_eq_some_iff.mp hitem).1

/-- The jumps that name nothing are those whose labels are never marked. -/
theorem dangling_jumps (rs : List Request) :
    (jumpsOf (appended rs)).filterMap
      (dangling? (after rs).label? .undefinedLabel)
      = undefinedLabels rs := by
  rw [jumpsOf, List.filterMap_filterMap, undefinedLabels]
  congr 1
  funext ⟨item, index⟩
  match item with
  | .whole i => rfl
  | .jump opcode label =>
      by_cases hmark : .mark label ∈ rs
      · obtain ⟨n, hn⟩ := exists_markedAt_iff.mpr hmark
        simp [dangling?, label?_after.mpr hn, hmark]
      · simp [dangling?, label?_after_eq_none.mpr hmark, hmark]

/-- No jump is complained about exactly if every label that one names was
marked. -/
theorem undefinedLabels_eq_nil :
    undefinedLabels rs = []
      ↔ ∀ index label, (index, label) ∈ jumpsOf (appended rs) →
        .mark label ∈ rs := by
  rw [← dangling_jumps, List.filterMap_eq_nil_iff, Prod.forall]
  simp only [dangling?_eq_none_iff, label?_after, exists_markedAt_iff]

/-- One pass over the jumps finds the complaints and positions of two passes
over the history. -/
theorem finish_eq_refuse
    (hfit : ∀ label n, MarkedAt rs label n → n < 0x80000000)
    (is : Array Instruction) :
    finish { after rs with instructions := is } = refuse (undefinedLabels rs)
      (filled (after rs).label? (jumpsOf (appended rs)) is) := by
  rw [finish, jumps_after, List.foldlM_toArray, ← dangling_jumps]
  exact foldlM_resolve (fun is' ref => resolve_eq _ is' ref)
    (fun ref _ n hn => hfit ref.2 n (label?_after.mp hn)) is

/-- Where its jumps are settled, each instruction is the one that was
appended. -/
theorem settles_filled (hfit : ∀ label n, MarkedAt rs label n → n < 0x80000000)
    (hdefined : undefinedLabels rs = []) {is : Array Instruction} {k : Nat}
    {item : Item} (hitem : (appended rs)[k]? = some item)
    (his : is[k]? = some item.opened) :
    ∃ i, (filled (after rs).label? (jumpsOf (appended rs)) is)[k]? = some i
      ∧ Settles rs item i := by
  match item with
  | .whole i =>
      have hnot : k ∉ (jumpsOf (appended rs)).map (·.1) := by
        intro hmem
        obtain ⟨⟨index, label⟩, href, rfl⟩ := List.mem_map.mp hmem
        obtain ⟨opcode, hjump⟩ := mem_jumpsOf.mp href
        rw [hitem] at hjump
        cases hjump
      exact ⟨i, by rw [getElem?_filled_of_not_mem hnot, his]; rfl, rfl⟩
  | .jump opcode label =>
      have hmem : (k, label) ∈ jumpsOf (appended rs) :=
        mem_jumpsOf.mpr ⟨opcode, hitem⟩
      -- no complaint is about this jump, so its label is marked somewhere
      obtain ⟨n, hn⟩ :=
        exists_markedAt_iff.mpr
          (undefinedLabels_eq_nil.mp hdefined k label hmem)
      refine ⟨_,
        by rw [getElem?_filled_of_mem (nodup_jumpsOf _) hmem, his]; rfl, n, hn,
        rfl, ?_, rfl⟩
      exact toInt_targetOperand (label?_after.mpr hn) (hfit label n hn)

-- ============================================================= finishing

/-- Lists of one length are related element by element if they are at every
index. -/
theorem forall₂_of_getElem? {α β : Type} {R : α → β → Prop} {xs : List α}
    {ys : List β} (hlength : xs.length = ys.length)
    (h : ∀ (k : Nat) (x : α), xs[k]? = some x → ∃ y, ys[k]? = some y ∧ R x y) :
    List.Forall₂ R xs ys := by
  refine List.forall₂_iff_get.mpr ⟨hlength, fun k hx hy => ?_⟩
  obtain ⟨y, hget, hR⟩ := h k _ (List.getElem?_eq_getElem hx)
  obtain rfl : ys[k] = y := (List.getElem?_eq_some_iff.mp hget).2
  exact hR

/-- The items that were appended are those that requests append. -/
theorem mem_appended {item : Item} :
    item ∈ appended rs ↔ .append item ∈ rs := by
  rw [appended, List.mem_filterMap]
  constructor
  · rintro ⟨r, hmem, heq⟩
    match r with
    | .append item' =>
        cases heq
        exact hmem
    | .mark label => cases heq
  · exact fun hmem => ⟨.append item, hmem, rfl⟩

/-- The same, in terms of the requests alone. -/
theorem undefinedLabels_eq_nil_iff :
    undefinedLabels rs = [] ↔
      ∀ opcode label, .append (.jump opcode label) ∈ rs →
        .mark label ∈ rs := by
  rw [undefinedLabels_eq_nil]
  constructor
  · intro h opcode label hmem
    obtain ⟨index, hitem⟩ := List.mem_iff_getElem?.mp (mem_appended.mpr hmem)
    exact h index label (mem_jumpsOf.mpr ⟨opcode, hitem⟩)
  · intro h index label hmem
    obtain ⟨opcode, hitem⟩ := mem_jumpsOf.mp hmem
    exact h opcode label (mem_appended.mp (List.mem_of_getElem? hitem))

/-- After every history of requests whose labels are at positions that fit an
operand, the code can be finished exactly if every label that a jump names is
marked somewhere. Then each instruction is the one that was appended, and the
operand of a jump is the number of instructions before the first mark of its
label. Otherwise the error is about the first jump whose label is not marked.
A label that is marked once more is refused, and nothing changes. -/
theorem finish_settles_labels
    (hfit : ∀ label n, MarkedAt rs label n → n < 0x80000000) :
    ((∃ code, (after rs).finish = .ok code) ↔
      ∀ opcode label, .append (.jump opcode label) ∈ rs → .mark label ∈ rs) ∧
    (∀ code, (after rs).finish = .ok code →
      List.Forall₂ (Settles rs) (appended rs) code.toList) ∧
    (∀ e, (after rs).finish = .error e ↔ (undefinedLabels rs).head? = some e) ∧
    (∀ label,
      ((after rs).mark label = .error (.duplicateLabel label)
        ↔ .mark label ∈ rs)
      ∧ (.mark label ∈ rs → after (rs ++ [.mark label]) = after rs)) := by
  have hfinish := finish_eq_refuse hfit (after rs).instructions
  change (after rs).finish = _ at hfinish
  refine ⟨?_, fun code hcode => ?_, fun e => ?_,
    fun label => ⟨mark_after_eq_error, fun hmem => ?_⟩⟩
  · rw [hfinish, ← undefinedLabels_eq_nil_iff]
    simp only [refuse_eq_ok_iff, exists_and_left, exists_eq', and_true]
  · rw [hfinish, refuse_eq_ok_iff] at hcode
    obtain ⟨hdefined, rfl⟩ := hcode
    refine forall₂_of_getElem? ?_ fun k item hitem => ?_
    · simp [instructions_after]
    · rw [Array.getElem?_toList]
      -- the operand is put in where the jump was appended
      refine settles_filled hfit hdefined hitem ?_
      rw [instructions_after, List.getElem?_toArray, List.getElem?_map, hitem,
        Option.map_some]
  · rw [hfinish, refuse_eq_error_iff]
  · rw [after_append_singleton, serve, mark_after_eq_error.mpr hmem]

/-- A jump forward and one back, to a label that is marked twice and to
one at the end. -/
def loop : List Request :=
  [.append (.jump .jumpIfFalse "end"), .mark "top",
    .append (.whole { opcode := .nop }), .append (.jump .jump "top"),
    .mark "top", .mark "end"]

/-- Both jumps of the loop are settled, and the second mark of its first label
is refused. -/
theorem loop_settles_labels :
    (∃ code, (after loop).finish = .ok code
        ∧ List.Forall₂ (Settles loop) (appended loop) code.toList)
      ∧ (after loop).mark "top" = .error (.duplicateLabel "top") := by
  have hfit : ∀ label n, MarkedAt loop label n → n < 0x80000000 :=
    fun label n h => Nat.lt_of_le_of_lt h.le (by decide)
  have hdefined : ∀ opcode label, .append (.jump opcode label) ∈ loop →
      .mark label ∈ loop := by
    intro opcode label hmem
    obtain ⟨-, rfl⟩ | ⟨-, rfl⟩ : opcode = .jumpIfFalse ∧ label = "end"
        ∨ opcode = .jump ∧ label = "top" := by simpa [loop] using hmem
    · decide
    · decide
  obtain ⟨hok, hsettles, -, hmark⟩ := finish_settles_labels hfit
  obtain ⟨code, hcode⟩ := hok.mpr hdefined
  exact ⟨⟨code, hcode, hsettles code hcode⟩, (hmark "top").1.mpr (by decide)⟩

end StackMachine.Assembly.Code
