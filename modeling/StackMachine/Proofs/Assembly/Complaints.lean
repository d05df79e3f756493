/-
What keeps a program under construction from being built. Building settles
the calls, the starts, the entry and the jumps, one kind after the other, and
gives up at the first thing that is wrong. Told without the order of work:
`complaints` lists everything that is wrong, and building reports the first
of it (`build_eq_error_iff`). Nothing is assumed of the sizes, so a position
that fits no operand is a complaint like any other. What is assumed is that
the map of names agrees with the table, as it does in every draft that is
reached.
-/
import StackMachine.Proofs.Assembly.Names
import StackMachine.Proofs.Assembly.References

namespace StackMachine.Assembly.Draft

-- ============================================================= vocabulary

section Vocabulary

variable (d : Draft)

/-- What is wrong with the calls, in their order. -/
def callComplaints : List BuildError :=
  d.calls.toList.filterMap (unsettled? d.functionIndex? .undefinedFunction)

/-- What is wrong with the start of a function: it is a label that is bound
nowhere. -/
def startComplaint? (f : Declaration) : Option BuildError :=
  match f.start with
  | .inl _ => none
  | .inr label =>
    match d.code.label? label with
    | some _ => none
    | none => some (.undefinedEntryLabel f.name label)

/-- What is wrong with the starts, in the order of the declarations. -/
def startComplaints : List BuildError :=
  d.functions.toList.filterMap d.startComplaint?

/-- What is wrong with the chosen entry. -/
def entryComplaint? : Option BuildError :=
  match d.entry with
  | none => none
  | some name =>
    match d.functionIndex? name with
    | some _ => none
    | none => some (.undefinedEntry name)

/-- What is wrong with the jumps, in their order. -/
def jumpComplaints : List BuildError :=
  d.code.jumps.toList.filterMap (unsettled? d.code.label? .undefinedLabel)

/-- What is wrong with the table as a whole. -/
def tableComplaint? : Option BuildError :=
  if d.functions.size = 0 then some (.program .noFunctions) else none

/-- Everything that is wrong, in the order in which it is reported. -/
def complaints : List BuildError :=
  d.callComplaints ++ d.startComplaints ++ d.entryComplaint?.toList
    ++ d.jumpComplaints
    ++ d.tableComplaint?.toList

/-- The table entry of a declaration, with zero for a label that is not
bound. -/
def tableEntry (f : Declaration) : Function where
  name := f.name
  entry :=
    match f.start with
    | .inl entry => entry
    | .inr label => (d.code.label? label).getD 0
  params := f.params
  locals := f.locals

/-- The index of the entry, with zero for a function that is not declared. -/
def entryIndex : Nat :=
  match d.entry with
  | none => 0
  | some name => (d.functionIndex? name).getD 0

/-- The instructions with the calls and the jumps filled in. -/
def linked : Array Instruction :=
  filled d.code.label? d.code.jumps.toList
    (filled d.functionIndex? d.calls.toList d.code.instructions)

/-- What an error of building says about the draft. -/
def Complains : BuildError → Prop
  | .undefinedFunction name index =>
    (index, name) ∈ d.calls.toList ∧ d.functionIndex? name = none
  | .undefinedEntryLabel name label =>
    ∃ f ∈ d.functions.toList,
      f.name = name ∧ f.start = .inr label ∧ d.code.label? label = none
  | .undefinedEntry name => d.entry = some name ∧ d.functionIndex? name = none
  | .undefinedLabel label index =>
    (index, label) ∈ d.code.jumps.toList ∧ d.code.label? label = none
  | .operandOverflow position =>
    0x80000000 ≤ position ∧
      ∃ name, d.functionIndex? name = some position
        ∨ d.code.label? name = some position
  | .program error => error = .noFunctions
  | .duplicateLabel _ => False
  | .duplicateFunction _ => False

end Vocabulary

variable {d : Draft} {e : BuildError}

-- ======================================================= the four settlings

/-- The calls are settled one after the other, and the first one that cannot
be is the error. -/
theorem foldlM_resolveCall (is : Array Instruction) :
    d.calls.foldlM d.resolveCall is
      = refuse d.callComplaints
        (filled d.functionIndex? d.calls.toList is) := by
  rw [← Array.foldlM_toList]
  exact foldlM_settle d.resolveCall_eq is

/-- A start is settled unless it is a label that is bound nowhere. -/
theorem resolveStart_eq (f : Declaration) :
    d.resolveStart f = refuse (d.startComplaint? f).toList
      (d.tableEntry f) := by
  rw [resolveStart, startComplaint?, tableEntry]
  cases f.start with
  | inl entry => rfl
  | inr label => cases h : d.code.label? label <;> simp [h, refuse]

/-- The starts are settled in the order of the declarations. -/
theorem mapM_resolveStart :
    d.functions.mapM d.resolveStart
      = refuse d.startComplaints
        (d.functions.toList.map d.tableEntry).toArray := by
  rw [Array.mapM_eq_mapM_toList, mapM_refuse fun f _ => resolveStart_eq f,
    startComplaints]
  cases d.functions.toList.filterMap d.startComplaint? <;> rfl

/-- The entry is settled unless it is a name that is not declared. -/
theorem resolveEntry_eq :
    d.resolveEntry = refuse d.entryComplaint?.toList d.entryIndex := by
  rw [resolveEntry, entryComplaint?, entryIndex]
  cases d.entry with
  | none => rfl
  | some name => cases h : d.functionIndex? name <;> simp [h, refuse]

/-- Jumps are settled by the labels of the draft, whatever became of its
calls. -/
theorem finish_eq (is : Array Instruction) :
    Code.finish { d.code with instructions := is }
      = refuse d.jumpComplaints
        (filled d.code.label? d.code.jumps.toList is) := by
  rw [Code.finish, ← Array.foldlM_toList]
  exact foldlM_settle (Code.resolve_eq { d.code with instructions := is }) is

/-- A table that is not empty holds the entry. -/
theorem entryIndex_lt (hd : d.Indexed) (h : d.functions.size ≠ 0) :
    d.entryIndex < d.functions.size := by
  have hpos : 0 < d.functions.size := Nat.pos_of_ne_zero h
  unfold entryIndex
  cases d.entry with
  | none => exact hpos
  | some name =>
      show (d.functionIndex? name).getD 0 < d.functions.size
      cases hindex : d.functionIndex? name with
      | none => exact hpos
      | some index => exact hd.functionIndex?_lt hindex

-- ================================================================ building

/-- Building with the kinds apart: what is wrong with each, and the parts of
the program. -/
theorem build_eq :
    d.build =
      refuse (d.callComplaints ++ d.startComplaints
        ++ d.entryComplaint?.toList ++ d.jumpComplaints) d.linked
      >>= fun code =>
        match Program.new d.constants code
          (d.functions.toList.map d.tableEntry).toArray
          d.entryIndex with
        | .ok p => .ok p
        | .error e => .error (.program e) := by
  unfold build
  -- a kind with a complaint ends the building, so each is settled where those
  -- before it have none
  rw [foldlM_resolveCall]
  cases d.callComplaints with
  | cons e es => rfl
  | nil =>
      rw [refuse_nil_bind, mapM_resolveStart]
      cases d.startComplaints with
      | cons e es => rfl
      | nil =>
          rw [refuse_nil_bind, resolveEntry_eq]
          cases d.entryComplaint? with
          | some e => rfl
          | none =>
              rw [Option.toList_none, refuse_nil_bind, finish_eq]
              rfl

/-- Building fails with the first complaint, and only with a complaint. -/
theorem build_eq_error_iff (hd : d.Indexed) :
    d.build = .error e ↔ d.complaints.head? = some e := by
  rw [build_eq, complaints]
  cases d.callComplaints ++ d.startComplaints ++ d.entryComplaint?.toList
    ++ d.jumpComplaints with
  | cons e' es =>
      show Except.error e' = _ ↔ some e' = _
      simp
  | nil =>
      rw [refuse_nil_bind, List.nil_append, tableComplaint?, Program.new]
      have hsize : (d.functions.toList.map d.tableEntry).toArray.size
          = d.functions.size := by simp
      by_cases hempty : d.functions.size = 0
      · rw [if_pos (hsize.trans hempty), if_pos hempty]
        simp
      · rw [if_neg (hsize.symm ▸ hempty),
          dif_pos (hsize.symm ▸ entryIndex_lt hd hempty), if_neg hempty]
        simp

-- ============================================================== complaints

/-- A complaint about a start names the function and the label. -/
theorem startComplaint?_eq_some_iff {f : Declaration} :
    d.startComplaint? f = some e ↔
      ∃ label, f.start = .inr label ∧ d.code.label? label = none
        ∧ .undefinedEntryLabel f.name label = e := by
  rw [startComplaint?]
  cases f.start with
  | inl entry => simp
  | inr label => cases h : d.code.label? label <;> simp [h]

/-- A complaint about the entry names what was chosen. -/
theorem entryComplaint?_eq_some_iff :
    d.entryComplaint? = some e ↔
      ∃ name, d.entry = some name ∧ d.functionIndex? name = none
        ∧ .undefinedEntry name = e := by
  rw [entryComplaint?]
  cases d.entry with
  | none => simp
  | some name => cases h : d.functionIndex? name <;> simp [h]

/-- What building reports is true of the draft. -/
theorem complains_of_build (hd : d.Indexed) (h : d.build = .error e) :
    d.Complains e := by
  have hmem : e ∈ d.complaints :=
    List.mem_of_head? ((build_eq_error_iff hd).mp h)
  -- by the kind of the complaint that is reported
  simp only [complaints, List.mem_append, or_assoc] at hmem
  rcases hmem with hcall | hstart | hentry | hjump | htable
  · obtain ⟨⟨index, name⟩, href, hcall⟩ := List.mem_filterMap.mp hcall
    rcases unsettled?_eq_some_iff.mp hcall
      with ⟨hnone, rfl⟩ | ⟨target, htarget, hle, rfl⟩
    · exact ⟨href, hnone⟩
    · exact ⟨hle, name, .inl htarget⟩
  · obtain ⟨f, hf, hstart⟩ := List.mem_filterMap.mp hstart
    obtain ⟨label, hlabel, hnone, rfl⟩ := startComplaint?_eq_some_iff.mp hstart
    exact ⟨f, hf, rfl, hlabel, hnone⟩
  · obtain ⟨name, hname, hnone, rfl⟩ :=
      entryComplaint?_eq_some_iff.mp (Option.mem_toList.mp hentry)
    exact ⟨hname, hnone⟩
  · obtain ⟨⟨index, label⟩, href, hjump⟩ := List.mem_filterMap.mp hjump
    rcases unsettled?_eq_some_iff.mp hjump
      with ⟨hnone, rfl⟩ | ⟨target, htarget, hle, rfl⟩
    · exact ⟨href, hnone⟩
    · exact ⟨hle, label, .inr htarget⟩
  · rw [Option.mem_toList, tableComplaint?] at htable
    split at htable
    · cases htable
      rfl
    · cases htable

/-- Starts are complained about exactly if nothing is wrong with the calls and
something with the starts. -/
theorem undefinedEntryLabel_iff (hd : d.Indexed) (h : d.build = .error e) :
    (∃ name label, e = .undefinedEntryLabel name label) ↔
      d.callComplaints = [] ∧ d.startComplaints ≠ [] := by
  have hhead := (build_eq_error_iff hd).mp h
  constructor
  · rintro ⟨name, label, rfl⟩
    obtain ⟨f, hf, rfl, hlabel, hnone⟩ := complains_of_build hd h
    have hstart := startComplaint?_eq_some_iff.mpr ⟨label, hlabel, hnone, rfl⟩
    refine ⟨?_, List.ne_nil_of_mem (List.mem_filterMap.mpr ⟨f, hf, hstart⟩)⟩
    -- a complaint about a call would have been reported first, and is
    -- none about a start
    cases hcalls : d.callComplaints with
    | nil => rfl
    | cons e es =>
        rw [complaints, hcalls] at hhead
        have hmem : .undefinedEntryLabel f.name label ∈ d.callComplaints := by
          rw [hcalls, ← Option.some.inj hhead]
          exact List.mem_cons_self
        obtain ⟨ref, -, hcall⟩ := List.mem_filterMap.mp hmem
        rcases unsettled?_eq_some_iff.mp hcall
          with ⟨-, heq⟩ | ⟨target, -, -, heq⟩
        · cases heq
        · cases heq
  · rintro ⟨hcalls, hstarts⟩
    obtain ⟨e', es, hes⟩ := List.exists_cons_of_ne_nil hstarts
    rw [complaints, hcalls, hes] at hhead
    obtain rfl : e' = e := Option.some.inj hhead
    have hmem : e' ∈ d.startComplaints := hes ▸ List.mem_cons_self
    obtain ⟨f, -, hstart⟩ := List.mem_filterMap.mp hmem
    obtain ⟨label, -, -, heq⟩ := startComplaint?_eq_some_iff.mp hstart
    exact ⟨f.name, label, heq.symm⟩

end StackMachine.Assembly.Draft
