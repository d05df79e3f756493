/-
What a text states, line by line. `stated` is the sequence of its statements,
each with the number of its line, and everything else is a view of that
sequence: the instructions, the references to labels and to functions with
the number of the instruction that makes them, the labels, the functions with
the labels they start at, and the choices of an entry.

While a text is read, the draft and the lines noted beside it hold exactly
what these views say (`Reading.Follows`). The line of an instruction is noted
in one table and the instruction appended to another; the two stay aligned
because a statement adds to both or to neither, whatever labels, directives
and empty lines come between. One step lemma adds a statement, and the run
lemma all lines.
-/
import StackMachine.Proofs.Assembly.Assembled
import StackMachine.Proofs.Assembly.Rebuild
import StackMachine.Proofs.Assembly.References

namespace StackMachine

/-- What holds between the things met so far and the state of a fold holds
behind all of them, if each step keeps it for one thing more. -/
theorem foldlM_history {ε α β γ : Type} {f : β → α → Except ε β}
    (view : α → List γ) {inv : List γ → β → Prop}
    (hstep : ∀ met b b' x, inv met b → f b x = .ok b' →
      inv (met ++ view x) b') {xs : List α} {met : List γ} {b b' : β}
    (hb : inv met b) (h : xs.foldlM f b = .ok b') :
    inv (met ++ xs.flatMap view) b' := by
  induction xs generalizing met b with
  | nil =>
      cases h
      rwa [List.flatMap_nil, List.append_nil]
  | cons x xs ih =>
      rw [List.foldlM_cons] at h
      obtain ⟨b₁, h₁, h⟩ := exists_of_bind_ok h
      rw [List.flatMap_cons, ← List.append_assoc]
      exact ih (hstep met b b₁ x hb h₁) h

namespace Assembly

-- ============================================================= vocabulary

/-- A statement and the number of its line. -/
abbrev Stated := Nat × Statement

/-- What one line states. A line that is no sequence of statements
states nothing. -/
def statedBy (line : List Char × Nat) : List Stated :=
  match Statement.ofLine line.1 with
  | .ok ss => ss.map (line.2, ·)
  | .error _ => []

/-- What a text states, in order. -/
def stated (text : String) : List Stated :=
  ((Text.lines text).zipIdx 1).flatMap statedBy

@[simp] def Statement.isInstruction : Statement → Bool
  | .instruction .. => true
  | _ => false

/-- The instructions, in program order. -/
def instructions (ss : List Stated) : List Stated :=
  ss.filter (·.2.isInstruction)

/-- The name that an instruction refers to. -/
@[simp] def Statement.names?
    (name? : Operand → Option String) : Statement → Option String
  | .instruction _ operand => name? operand
  | _ => none

/-- The references of instructions by name, each with the number of its
instruction. -/
def references (name? : Operand → Option String)
    (ss : List Stated) : List (Nat × String) :=
  (instructions ss).zipIdx.filterMap fun x => (x.1.2.names? name?).map (x.2, ·)

/-- The label that an operand names. -/
@[simp] def Operand.label? : Operand → Option String
  | .label name => some name
  | _ => none

/-- The function that an operand names. -/
@[simp] def Operand.function? : Operand → Option String
  | .function name => some name
  | _ => none

/-- The label that a function starts at. -/
@[simp] def Start.label? : Start → Option String
  | .label name => some name
  | _ => none

/-- The label that a statement defines. -/
@[simp] def definedLabel? : Stated → Option String
  | (_, .label name) => some name
  | _ => none

/-- The function that a statement declares, with the label it starts at. -/
@[simp] def declaration? : Stated → Option (String × Option String)
  | (_, .function name _ _ start) => some (name, start.label?)
  | _ => none

/-- The entry that a statement chooses, with its line. -/
@[simp] def chosen? : Stated → Option (Nat × String)
  | (line, .entry name) => some (line, name)
  | _ => none

/-- The labels that are defined. -/
def definedLabels (ss : List Stated) : List String :=
  ss.filterMap definedLabel?

/-- The functions that are declared, each with the label it starts at. -/
def declarations (ss : List Stated) : List (String × Option String) :=
  ss.filterMap declaration?

/-- The choices of an entry, each with its line. -/
def entries (ss : List Stated) : List (Nat × String) := ss.filterMap chosen?

/-- What a reading holds is what was stated. -/
structure Reading.Follows (ss : List Stated) (r : Reading) : Prop where
  lines : r.instructionLines.toList = (instructions ss).map (·.1)
  size : r.draft.code.instructions.size = (instructions ss).length
  jumps : r.draft.code.jumps.toList = references Operand.label? ss
  calls : r.draft.calls.toList = references Operand.function? ss
  labels : r.draft.code.labels.map (·.1) = (definedLabels ss).reverse
  functions :
    r.draft.functions.toList.map (fun f => (f.name, f.start.getRight?))
      = declarations ss
  entry : r.draft.entry = (entries ss).getLast?.map (·.2)
  entryLine : r.entryLine = (entries ss).getLast?.map (·.1)
  indexed : r.draft.Indexed

-- ================================================================== views

variable {ss : List Stated} {r r' : Reading}

/-- A statement has the number of the line that holds it. -/
theorem mem_stated {text : String} {number : Nat} {s : Statement} :
    (number, s) ∈ stated text
      ↔ ∃ line ls, (line, number) ∈ (Text.lines text).zipIdx 1
      ∧ Statement.ofLine line = .ok ls ∧ s ∈ ls := by
  rw [stated, List.mem_flatMap]
  constructor
  · rintro ⟨⟨line, k⟩, hmem, hs⟩
    unfold statedBy at hs
    cases hline : Statement.ofLine line with
    | error e =>
        simp only [hline] at hs
        cases hs
    | ok ls =>
        simp only [hline] at hs
        obtain ⟨s', hs', heq⟩ := List.mem_map.mp hs
        cases heq
        exact ⟨line, ls, hmem, hline, hs'⟩
  · rintro ⟨line, ls, hmem, hline, hs⟩
    refine ⟨(line, number), hmem, ?_⟩
    simp only [statedBy, hline]
    exact List.mem_map_of_mem hs

/-- An operand that names a label is that label. -/
theorem Operand.eq_label {operand : Operand} {name : String}
    (h : operand.label? = some name) :
    operand = .label name := by
  cases operand with
  | label n => rw [Option.some.inj h]
  | _ => cases h

theorem Operand.eq_function {operand : Operand} {name : String}
    (h : operand.function? = some name) : operand = .function name := by
  cases operand with
  | function n => rw [Option.some.inj h]
  | _ => cases h

/-- A start names a label after it is resolved exactly if it did so before. -/
@[simp] theorem getRight?_resolve (position : Nat) (start : Start) :
    (start.resolve position).getRight? = start.label? := by
  cases start <;> rfl

section Snoc

variable (ss : List Stated) (number : Nat) (s : Statement)

theorem filterMap_snoc {α β : Type} (part? : α → Option β) (xs : List α)
    (x : α) :
    (xs ++ [x]).filterMap part? = xs.filterMap part? ++ (part? x).toList := by
  rw [List.filterMap_append, filterMap_cons_eq, List.filterMap_nil,
    List.append_nil]

/-- A label at the end is defined last. -/
@[simp] theorem definedLabels_snoc :
    definedLabels (ss ++ [(number, s)])
      = definedLabels ss ++ (definedLabel? (number, s)).toList :=
  filterMap_snoc _ ss _

/-- A declaration at the end is the last one. -/
@[simp] theorem declarations_snoc :
    declarations (ss ++ [(number, s)])
      = declarations ss ++ (declaration? (number, s)).toList :=
  filterMap_snoc _ ss _

/-- A choice at the end is the last choice. -/
@[simp] theorem entries_snoc :
    entries (ss ++ [(number, s)])
      = entries ss ++ (chosen? (number, s)).toList :=
  filterMap_snoc _ ss _

/-- An instruction at the end is the last one. -/
@[simp] theorem instructions_snoc :
    instructions (ss ++ [(number, s)])
      = instructions ss ++ if s.isInstruction then [(number, s)] else [] := by
  rw [instructions, List.filter_append]
  cases s <;> rfl

/-- The instruction that a new reference belongs to has the number of
those before it. -/
@[simp] theorem references_snoc (name? : Operand → Option String) :
    references name? (ss ++ [(number, s)])
      = references name? ss
        ++ ((s.names? name?).map ((instructions ss).length, ·)).toList := by
  rw [references, instructions_snoc]
  cases s with
  | instruction opcode operand =>
      rw [Statement.isInstruction, if_pos rfl,
        List.zipIdx_append, Nat.zero_add]
      exact filterMap_snoc _ _ _
  | _ => simp [references]

end Snoc

/-- A reference is that of an instruction whose operand is a name, under the
number of the instruction. -/
theorem mem_references {name? : Operand → Option String} {k : Nat}
    {name : String} :
    (k, name) ∈ references name? ss ↔ ∃ number opcode operand,
      (instructions ss)[k]? = some (number, .instruction opcode operand)
        ∧ name? operand = some name := by
  rw [references, List.mem_filterMap]
  constructor
  · rintro ⟨⟨⟨number, s⟩, k'⟩, hmem, hname⟩
    obtain ⟨n, hn, heq⟩ := Option.map_eq_some_iff.mp hname
    cases heq
    cases s with
    | instruction opcode operand =>
        exact ⟨number, opcode, operand,
          List.mem_zipIdx_iff_getElem?.mp hmem, hn⟩
    | _ => cases hn
  · rintro ⟨number, opcode, operand, hk, hname⟩
    refine ⟨((number, .instruction opcode operand), k),
      List.mem_zipIdx_iff_getElem?.mpr hk, ?_⟩
    show (name? operand).map _ = _
    rw [hname]
    rfl

/-- Every instruction that names something makes a reference, whatever its
number is. -/
theorem exists_mem_references {name? : Operand → Option String}
    {name : String} :
    (∃ k, (k, name) ∈ references name? ss) ↔ ∃ number opcode operand,
      (number, .instruction opcode operand) ∈ ss
        ∧ name? operand = some name := by
  constructor
  · rintro ⟨k, hk⟩
    obtain ⟨number, opcode, operand, hat, hname⟩ := mem_references.mp hk
    exact ⟨number, opcode, operand,
      (List.mem_filter.mp (List.mem_of_getElem? hat)).1, hname⟩
  · rintro ⟨number, opcode, operand, hmem, hname⟩
    have hinstruction : (number, .instruction opcode operand)
        ∈ instructions ss :=
      List.mem_filter.mpr ⟨hmem, rfl⟩
    obtain ⟨k, hk⟩ := List.mem_iff_getElem?.mp hinstruction
    exact ⟨k, mem_references.mpr ⟨number, opcode, operand, hk, hname⟩⟩

/-- A choice of an entry has the line of its statement. -/
theorem mem_entries {number : Nat} {name : String} :
    (number, name) ∈ entries ss ↔ (number, .entry name) ∈ ss := by
  rw [entries, List.mem_filterMap]
  constructor
  · rintro ⟨⟨line, s⟩, hmem, hchosen⟩
    cases s with
    | entry n =>
        cases hchosen
        exact hmem
    | _ => cases hchosen
  · intro hmem
    exact ⟨_, hmem, rfl⟩

-- ================================================================ reading

namespace Reading

theorem follows_empty : Follows [] {} := by
  constructor
  case indexed => exact Draft.indexed_empty
  all_goals rfl

/-- A statement that is carried out leaves the draft that accepts it and the
lines that are noted for it. -/
theorem step_eq_ok {number : Nat} {s : Statement}
    (hs : r.step number s = .ok r') :
    ∃ d, r.draft.apply s = .ok d
      ∧ r' = { r.note number s with draft := d } := by
  rw [step_eq] at hs
  split at hs
  · next d hd =>
    cases hs
    exact ⟨d, hd, rfl⟩
  · cases hs

/-- Carrying out one more statement. -/
theorem Follows.step {number : Nat} {s : Statement} (h : r.Follows ss)
    (hs : r.step number s = .ok r') : r'.Follows (ss ++ [(number, s)]) := by
  obtain ⟨d, hd, rfl⟩ := step_eq_ok hs
  have hindexed := h.indexed.apply hd
  obtain ⟨hlines, hsize, hjumps, hcalls, hlabels, hfunctions, hentry,
    hentryLine, hbefore⟩ := h
  cases s with
  | label name =>
      rw [Draft.apply, Draft.mark, Code.mark] at hd
      cases hlabel : r.draft.code.label? name with
      | some n =>
          rw [hlabel] at hd
          cases hd
      | none =>
          rw [hlabel] at hd
          cases hd
          constructor
          case indexed => exact hindexed
          all_goals simp [*, note]
  | constant v =>
      cases hd
      constructor
      case indexed => exact hindexed
      all_goals simp [*, note, Draft.constant]
  | function name params locals start =>
      rw [Draft.apply, hbefore.declare_eq] at hd
      split at hd
      · cases hd
      · cases hd
        constructor
        case indexed => exact hindexed
        all_goals simp [*, note]
  | entry name =>
      cases hd
      constructor
      case indexed => exact hindexed
      all_goals simp [*, note, Draft.setEntry]
  | instruction opcode operand =>
      -- the line and the instruction are appended together, to
      -- tables of one length
      cases hd
      constructor
      case indexed => exact hindexed
      all_goals cases operand <;> simp [*, note, Draft.emit, Code.emit,
        Draft.emitJump, Code.emitJump, Draft.emitCall, Code.position]

/-- After a line that is read, what it states was stated too. -/
theorem readLine_follows {line : List Char × Nat} (h : r.Follows ss)
    (hr : r.readLine line = .ok r') : r'.Follows (ss ++ statedBy line) := by
  unfold readLine at hr
  cases hline : Statement.ofLine line.1 with
  | error e =>
      rw [hline] at hr
      cases hr
  | ok ls =>
      rw [hline] at hr
      rw [statedBy, hline]
      show r'.Follows (ss ++ ls.map (line.2, ·))
      rw [List.map_eq_flatMap]
      exact foldlM_history (fun s => [(line.2, s)])
        (fun _ _ _ _ h hs => h.step hs) h hr

/-- A text that was read to the end left what it states. -/
theorem readLines_follows {text : String}
    (hr : readLines {} ((Text.lines text).zipIdx 1) = .ok r) :
    r.Follows (stated text) :=
  foldlM_history statedBy (fun _ _ _ _ h hline => readLine_follows h hline)
    follows_empty hr

end Reading

end Assembly

end StackMachine
