/-
Building programs from histories. Calls, starts, the entry and jumps are
settled one kind after the other, over instructions and tables that the kinds
share. What comes out is told by the history in two steps: `complaints` lists
everything that is wrong, in the order in which it is reported, and `Linked`
says what the program is when nothing is.

The step that is not routine is that the kinds do not disturb each other.
Calls and jumps stand at different positions, so filling in the operands of
one leaves those of the other open (`getElem?_calls`), and the index by which
a function is found in the table under construction is the one by which the
finished program finds it (`functionNamed?_eq`).
-/
import StackMachine.Proofs.Assembly.Complaints
import StackMachine.Proofs.Assembly.History

namespace StackMachine.Assembly.History

open Draft

-- ============================================================= vocabulary

/-- Positions of labels, indices of constants and indices of functions
fit an operand. -/
structure Fits (rs : List Request) : Prop where
  labels : ∀ label n, Code.MarkedAt (codeRequests rs) label n → n < 0x80000000
  constants : (constants rs).length ≤ 0x80000000
  functions : (declared rs).length ≤ 0x80000000

/-- A complaint for each call of a function that is not declared, in the order
of the calls. -/
def undefinedFunctions (rs : List Request) : List BuildError :=
  (calls rs).filterMap fun call =>
    if call.2 ∈ names rs then none else some (.undefinedFunction call.2 call.1)

/-- The complaint about a function that starts at a label that is not
marked. -/
def undefinedStart? (rs : List Request)
    (f : Declaration) : Option BuildError :=
  match f.start with
  | .inl _ => none
  | .inr label =>
    if .code (.mark label) ∈ rs then none
    else some (.undefinedEntryLabel f.name label)

/-- Such complaints in the order of the declarations. -/
def undefinedStarts (rs : List Request) : List BuildError :=
  (declared rs).filterMap (undefinedStart? rs)

/-- A complaint about the chosen entry if it is not declared. -/
def undefinedEntry (rs : List Request) : List BuildError :=
  (selected rs).toList.filterMap fun name =>
    if name ∈ names rs then none else some (.undefinedEntry name)

/-- A complaint about a table without functions. -/
def emptyTable (rs : List Request) : List BuildError :=
  if names rs = [] then [.program .noFunctions] else []

/-- All that keeps a history from being a program, in the order in which
it is reported. -/
def complaints (rs : List Request) : List BuildError :=
  undefinedFunctions rs ++ undefinedStarts rs ++ undefinedEntry rs
    ++ Code.undefinedLabels (codeRequests rs) ++ emptyTable rs

/-- A function of the program is the one that was declared, and starts where
it was declared to. -/
structure Starts (rs : List Request) (f : Declaration)
    (g : Function) : Prop where
  name : g.name = f.name
  params : g.params = f.params
  locals : g.locals = f.locals
  index : ∀ n, f.start = .inl n → g.entry = n
  label : ∀ label, f.start = .inr label →
    Code.MarkedAt (codeRequests rs) label g.entry

/-- A program is what a history asks for. -/
structure Linked (rs : List Request) (p : Program) : Prop where
  constants : p.constants.toList = constants rs
  functions : List.Forall₂ (Starts rs) (declared rs) p.functions.toList
  /-- Without a choice the first function is the entry. -/
  first : selected rs = none → p.entry = 0
  entry : ∀ name, selected rs = some name →
    ∃ f, p.functionNamed? name = some (p.entry, f)
  length : p.code.size = position rs
  /-- A call has the index of the function with its name. -/
  calls : ∀ index name, (index, name) ∈ calls rs →
    ∃ k f i, p.functionNamed? name = some (k, f) ∧ p.code[index]? = some i
      ∧ i.opcode = .call ∧ i.operand.toInt = k ∧ i.spare = 0
  /-- Any other instruction is as it was appended, with the position of its
  label for a jump. -/
  others : ∀ index item,
    (Code.appended (codeRequests rs))[index]? = some item →
    (∀ name, (index, name) ∉ History.calls rs) →
      ∃ i, p.code[index]? = some i ∧ Code.Settles (codeRequests rs) item i

variable {rs : List Request}

-- ============================================== what the code is asked for

/-- Labels are marked and named by requests to the code only. -/
theorem mem_codeRequests {q : Code.Request}
    (hq : ∀ i, q ≠ .append (.whole i)) :
    q ∈ codeRequests rs ↔ .code q ∈ rs := by
  rw [codeRequests, mem_collect]
  constructor
  · rintro ⟨k, r, hr, hview⟩
    cases r with
    | code r =>
        cases hview
        exact List.mem_of_getElem? hr
    | pushConstant v =>
        cases hview
        exact absurd rfl (hq _)
    | call name =>
        cases hview
        exact absurd rfl (hq _)
    | _ => cases hview
  · intro hmem
    obtain ⟨k, hk⟩ := List.mem_iff_getElem?.mp hmem
    exact ⟨k, _, hk, rfl⟩

/-- The positions of calls belong to the calls that were asked for. -/
theorem mem_calls {name : String} :
    (∃ index, (index, name) ∈ calls rs) ↔ .call name ∈ rs := by
  simp only [calls, mem_collect]
  constructor
  · rintro ⟨index, k, r, hr, hview⟩
    cases r with
    | call n =>
        cases hview
        exact List.mem_of_getElem? hr
    | _ => cases hview
  · intro hmem
    obtain ⟨k, hk⟩ := List.mem_iff_getElem?.mp hmem
    exact ⟨_, k, _, hk, rfl⟩

/-- Where a call by name stands, a call was appended. -/
theorem getElem?_calls {index : Nat} {name : String}
    (h : (index, name) ∈ calls rs) :
    (Code.appended (codeRequests rs))[index]?
      = some (.whole { opcode := .call }) := by
  induction rs using List.reverseRecOn with
  | nil => cases h
  | append_singleton rs r ih =>
      rw [codeRequests_append_singleton, Code.appended_append]
      rw [calls_append_singleton, List.mem_append] at h
      rcases h with h | h
      · have hget := ih h
        rw [List.getElem?_append_left (List.getElem?_eq_some_iff.mp hget).1,
          hget]
      · cases r with
        | call n =>
            obtain ⟨rfl, rfl⟩ : index = position rs ∧ name = n := by
              simpa [call?] using h
            rw [position, List.getElem?_append_right (Nat.le_refl _),
              Nat.sub_self]
            rfl
        | _ => cases h

/-- No two calls stand at one position. -/
theorem nodup_calls (rs : List Request) : ((calls rs).map (·.1)).Nodup := by
  induction rs using List.reverseRecOn with
  | nil => exact List.nodup_nil
  | append_singleton rs r ih =>
      rw [calls_append_singleton]
      cases r with
      | call n =>
          refine nodup_positions_concat n ih fun ⟨index, name⟩ hmem => ?_
          exact (List.getElem?_eq_some_iff.mp (getElem?_calls hmem)).1
      | _ => simpa [call?] using ih

-- ================================================== what the draft says

/-- The code of the draft is what the requests to it alone make of it. -/
theorem code_after (hfit : Fits rs) :
    (Draft.after rs).code = Code.after (codeRequests rs) := by
  rw [after_eq hfit.constants]

/-- The table under construction holds what was declared. -/
theorem functions_after (hfit : Fits rs) :
    (Draft.after rs).functions = (declared rs).toArray := by
  rw [after_eq hfit.constants]

/-- The pool holds the constants in the order in which they were asked for. -/
theorem constants_after (hfit : Fits rs) :
    (Draft.after rs).constants = (constants rs).toArray := by
  rw [after_eq hfit.constants]

/-- The draft has noted the calls where they stand. -/
theorem calls_after (hfit : Fits rs) :
    (Draft.after rs).calls = (calls rs).toArray := by
  rw [after_eq hfit.constants]

/-- The draft has noted the last choice of an entry. -/
theorem selected_after (hfit : Fits rs) :
    (Draft.after rs).entry = selected rs := by
  rw [after_eq hfit.constants]

/-- The index of a declared function. -/
def index? (rs : List Request) (name : String) : Option Nat :=
  (declared rs).findIdx? (·.name == name)

/-- The map of the draft finds a function where it stands among the declared
ones. -/
theorem functionIndex?_after (hfit : Fits rs) (name : String) :
    (Draft.after rs).functionIndex? name = index? rs name := by
  rw [(indexed_after rs).functionIndex?_eq, functions_after hfit,
    List.findIdx?_toArray, index?]

theorem index?_lt {name : String} {k : Nat} (h : index? rs name = some k) :
    k < (declared rs).length := by
  rw [index?, List.findIdx?_eq_some_iff_getElem] at h
  exact h.1

/-- A name has an index exactly if it is declared. -/
theorem exists_index?_iff {name : String} :
    (∃ k, index? rs name = some k) ↔ name ∈ names rs := by
  rw [← mem_map_name_declared, ← Option.isSome_iff_exists, index?,
    List.findIdx?_isSome, List.any_eq_true, List.mem_map]
  simp only [beq_iff_eq]

/-- No index is found for a name that is not declared, and only for such. -/
theorem index?_eq_none_iff {name : String} :
    index? rs name = none ↔ name ∉ names rs := by
  rw [← exists_index?_iff, Option.eq_none_iff_forall_ne_some, not_exists]

/-- Names that are not declared are the references to nothing. -/
theorem dangling_calls (rs : List Request) :
    (calls rs).filterMap (dangling? (index? rs) .undefinedFunction)
      = undefinedFunctions rs := by
  rw [undefinedFunctions]
  congr 1
  funext call
  by_cases hname : call.2 ∈ names rs
  · rw [if_pos hname, dangling?_eq_none_iff]
    exact exists_index?_iff.mpr hname
  · rw [if_neg hname, dangling?, index?_eq_none_iff.mpr hname]

/-- Calls fit an operand, so the complaints about them are all about names. -/
theorem callComplaints_after (hfit : Fits rs) :
    (Draft.after rs).callComplaints = undefinedFunctions rs := by
  rw [callComplaints, calls_after hfit, funext (functionIndex?_after hfit),
    ← dangling_calls]
  exact filterMap_unsettled? fun _ _ _ hk =>
    Nat.lt_of_lt_of_le (index?_lt hk) hfit.functions

/-- Labels fit an operand too, so the complaints about jumps are all about
labels that are not marked. -/
theorem jumpComplaints_after (hfit : Fits rs) :
    (Draft.after rs).jumpComplaints
      = Code.undefinedLabels (codeRequests rs) := by
  rw [jumpComplaints, code_after hfit, Code.jumps_after, ← Code.dangling_jumps]
  exact filterMap_unsettled? fun ref _ n hn =>
    hfit.labels ref.2 n (Code.label?_after.mp hn)

/-- The table entry of a declaration whose label, if it has one, is marked. -/
def tableEntry (rs : List Request) (f : Declaration) : Function where
  name := f.name
  entry :=
    match f.start with
    | .inl entry => entry
    | .inr label => ((Code.after (codeRequests rs)).label? label).getD 0
  params := f.params
  locals := f.locals

theorem label?_eq_none_iff {label : String} :
    (Code.after (codeRequests rs)).label? label = none
      ↔ .code (.mark label) ∉ rs := by
  rw [Code.label?_after_eq_none, mem_codeRequests (by simp)]

/-- The draft complains about the starts that the history leaves undefined. -/
theorem startComplaints_after (hfit : Fits rs) :
    (Draft.after rs).startComplaints = undefinedStarts rs := by
  rw [startComplaints, functions_after hfit, undefinedStarts]
  refine List.filterMap_congr fun f _ => ?_
  rw [startComplaint?, undefinedStart?, code_after hfit]
  cases f.start with
  | inl entry => rfl
  | inr label =>
      by_cases hmark : .code (.mark label) ∈ rs
      · have hsome : (Code.after (codeRequests rs)).label? label ≠ none :=
          fun hnone => label?_eq_none_iff.mp hnone hmark
        obtain ⟨n, hn⟩ := Option.ne_none_iff_exists'.mp hsome
        simp only [hn, if_pos hmark]
      · simp only [label?_eq_none_iff.mpr hmark, if_neg hmark]

theorem tableEntry_after (hfit : Fits rs) :
    (Draft.after rs).tableEntry = tableEntry rs := by
  funext f
  rw [Draft.tableEntry, code_after hfit]
  rfl

/-- The index of the entry if it is declared. -/
def entryIndex (rs : List Request) : Nat :=
  match selected rs with
  | none => 0
  | some name => (index? rs name).getD 0

theorem entryIndex_after (hfit : Fits rs) :
    (Draft.after rs).entryIndex = entryIndex rs := by
  rw [Draft.entryIndex, selected_after hfit,
    funext (functionIndex?_after hfit)]
  rfl

/-- The draft complains about an entry exactly if the history leaves it
undefined. -/
theorem entryComplaint?_after (hfit : Fits rs) :
    (Draft.after rs).entryComplaint?.toList = undefinedEntry rs := by
  rw [entryComplaint?, selected_after hfit, undefinedEntry]
  cases selected rs with
  | none => rfl
  | some name =>
      by_cases hname : name ∈ names rs
      · obtain ⟨k, hk⟩ := exists_index?_iff.mpr hname
        simp [functionIndex?_after hfit, hk, hname]
      · simp [functionIndex?_after hfit, index?_eq_none_iff.mpr hname, hname]

-- ================================================================ building

/-- The instructions with calls and jumps settled. -/
def linkedCode (rs : List Request) : Array Instruction :=
  filled (Code.after (codeRequests rs)).label?
    (Code.jumpsOf (Code.appended (codeRequests rs)))
    (filled (index? rs) (calls rs) (Code.after (codeRequests rs)).instructions)

/-- Calls and jumps are filled in from the same tables. -/
theorem linked_after (hfit : Fits rs) :
    (Draft.after rs).linked = linkedCode rs := by
  rw [linked, linkedCode, calls_after hfit, funext (functionIndex?_after hfit),
    code_after hfit, Code.jumps_after]

/-- A program is built from the parts that the history gives, once
nothing is undefined. -/
theorem build_after (hfit : Fits rs) :
    (Draft.after rs).build =
      refuse (undefinedFunctions rs ++ undefinedStarts rs ++ undefinedEntry rs
          ++ Code.undefinedLabels (codeRequests rs)) (linkedCode rs)
        >>= fun code =>
          match Program.new (constants rs).toArray code
            ((declared rs).map (tableEntry rs)).toArray
            (entryIndex rs) with
          | .ok p => .ok p
          | .error e => .error (.program e) := by
  have hbuild := Draft.build_eq (d := Draft.after rs)
  rw [callComplaints_after hfit, startComplaints_after hfit,
    entryComplaint?_after hfit, jumpComplaints_after hfit, linked_after hfit,
    tableEntry_after hfit, entryIndex_after hfit,
    functions_after hfit, constants_after hfit] at hbuild
  exact hbuild

theorem declared_eq_nil_iff : declared rs = [] ↔ names rs = [] := by
  have hnames : (declared rs).map (·.name) = [] ↔ names rs = [] := by
    simp only [List.eq_nil_iff_forall_not_mem, mem_map_name_declared]
  rwa [List.map_eq_nil_iff] at hnames

/-- A table that is not empty holds the entry. -/
theorem entryIndex_lt (h : declared rs ≠ []) :
    entryIndex rs < (declared rs).length := by
  unfold entryIndex
  split
  · exact List.length_pos_of_ne_nil h
  · next name _ =>
    cases hk : index? rs name with
    | none => exact List.length_pos_of_ne_nil h
    | some k => exact index?_lt hk

/-- What building gives: the first complaint, or a program of the parts that
the history gives. -/
theorem build_cases (hfit : Fits rs) :
    (∃ e, (complaints rs).head? = some e ∧ (Draft.after rs).build = .error e) ∨
      (complaints rs = [] ∧ ∃ p, (Draft.after rs).build = .ok p
        ∧ p.constants = (constants rs).toArray ∧ p.code = linkedCode rs
        ∧ p.functions = ((declared rs).map (tableEntry rs)).toArray
        ∧ p.entry = entryIndex rs) := by
  rw [build_after hfit, complaints]
  cases undefinedFunctions rs ++ undefinedStarts rs ++ undefinedEntry rs
      ++ Code.undefinedLabels (codeRequests rs) with
  | cons e es => exact .inl ⟨e, rfl, rfl⟩
  | nil =>
      -- the table is looked at last
      rw [refuse_nil_bind, List.nil_append, emptyTable]
      by_cases hnil : names rs = []
      · have hnew : Program.new (constants rs).toArray (linkedCode rs)
            ((declared rs).map (tableEntry rs)).toArray (entryIndex rs)
              = .error .noFunctions := by
          rw [Program.new, if_pos (by simp [declared_eq_nil_iff.mpr hnil])]
        rw [if_pos hnil, hnew]
        exact .inl ⟨_, rfl, rfl⟩
      · have hdeclared : declared rs ≠ [] :=
          fun h => hnil (declared_eq_nil_iff.mp h)
        obtain ⟨p, hnew⟩ : ∃ p,
            Program.new (constants rs).toArray (linkedCode rs)
                ((declared rs).map (tableEntry rs)).toArray (entryIndex rs)
              = .ok p := by
          rw [Program.new, if_neg (by simpa using hdeclared),
            dif_pos (by simpa using entryIndex_lt hdeclared)]
          exact ⟨_, rfl⟩
        rw [if_neg hnil, hnew]
        exact .inr ⟨rfl, p, rfl, Program.parts_of_new hnew⟩

-- ============================================================== complaints

/-- No call is complained about exactly if every called name is declared. -/
theorem undefinedFunctions_eq_nil :
    undefinedFunctions rs = []
      ↔ ∀ name, .call name ∈ rs → name ∈ names rs := by
  rw [undefinedFunctions, List.filterMap_eq_nil_iff, Prod.forall, forall_comm]
  simp only [← mem_calls, ite_eq_left_iff, reduceCtorEq, imp_false, not_not,
    forall_exists_index]

/-- No start is complained about exactly if every label that a function starts
at is marked. -/
theorem undefinedStarts_eq_nil :
    undefinedStarts rs = [] ↔
      ∀ f ∈ declared rs, ∀ label, f.start = .inr label →
        .code (.mark label) ∈ rs := by
  rw [undefinedStarts, List.filterMap_eq_nil_iff]
  refine forall₂_congr fun f _ => ?_
  rw [undefinedStart?]
  cases f.start with
  | inl entry => simp
  | inr label => simp

/-- The entry is not complained about exactly if it is declared or none was
chosen. -/
theorem undefinedEntry_eq_nil :
    undefinedEntry rs = [] ↔ ∀ name, selected rs = some name →
      name ∈ names rs := by
  rw [undefinedEntry, List.filterMap_eq_nil_iff]
  simp

/-- No jump is complained about exactly if every label that one names is
marked. -/
theorem undefinedLabels_eq_nil :
    Code.undefinedLabels (codeRequests rs) = [] ↔
      ∀ opcode label, .code (.append (.jump opcode label)) ∈ rs →
        .code (.mark label) ∈ rs := by
  rw [Code.undefinedLabels_eq_nil_iff]
  refine forall₂_congr fun opcode label => ?_
  rw [mem_codeRequests (by simp), mem_codeRequests (by simp)]

/-- There is nothing to complain about exactly if everything that is named is
there and so is some function. -/
theorem complaints_eq_nil :
    complaints rs = [] ↔
      (∀ name, .call name ∈ rs → name ∈ names rs) ∧
      (∀ f ∈ declared rs, ∀ label, f.start = .inr label →
        .code (.mark label) ∈ rs) ∧
      (∀ name, selected rs = some name → name ∈ names rs) ∧
      (∀ opcode label, .code (.append (.jump opcode label)) ∈ rs →
        .code (.mark label) ∈ rs) ∧
      names rs ≠ [] := by
  rw [complaints, List.append_eq_nil_iff, List.append_eq_nil_iff,
    List.append_eq_nil_iff, List.append_eq_nil_iff, undefinedFunctions_eq_nil,
    undefinedStarts_eq_nil,
    undefinedEntry_eq_nil, undefinedLabels_eq_nil, and_assoc,
    and_assoc, and_assoc]
  simp [emptyTable]

-- ================================================================= programs

/-- A name has the same index in the finished table. -/
theorem functionNamed?_eq {p : Program}
    (hfunctions : p.functions = ((declared rs).map (tableEntry rs)).toArray)
    {name : String} {k : Nat} (hk : index? rs name = some k) :
    ∃ f, p.functionNamed? name = some (k, f) := by
  have hindex : p.functions.findIdx? (·.name == name) = some k := by
    rw [hfunctions, List.findIdx?_toArray, List.findIdx?_map]
    exact hk
  have hlt : k < p.functions.size := by
    simpa [hfunctions] using index?_lt hk
  refine ⟨p.functions[k], ?_⟩
  rw [Program.functionNamed?, hindex]
  simp [hlt]

/-- Where every start is defined, the table entry of a declaration starts
where it was declared to. -/
theorem starts_tableEntry
    (hdefined : ∀ f ∈ declared rs, ∀ label, f.start = .inr label →
      .code (.mark label) ∈ rs)
    {f : Declaration} (hf : f ∈ declared rs) :
    Starts rs f (tableEntry rs f) := by
  refine ⟨rfl, rfl, rfl, fun n hn => ?_, fun label hlabel => ?_⟩
  · rw [tableEntry, hn]
  · have hmark : .mark label ∈ codeRequests rs :=
      (mem_codeRequests (by simp)).mpr (hdefined f hf label hlabel)
    obtain ⟨n, hn⟩ := Code.exists_markedAt_iff.mpr hmark
    have hentry : (tableEntry rs f).entry = n := by
      rw [tableEntry, hlabel]
      simp only [Code.label?_after.mpr hn, Option.getD_some]
    rw [hentry]
    exact hn

/-- Before anything is settled, an instruction stands with its operand
open. -/
theorem getElem?_opened {index : Nat} {item : Code.Item}
    (h : (Code.appended (codeRequests rs))[index]? = some item) :
    (Code.after (codeRequests rs)).instructions[index]?
      = some item.opened := by
  rw [Code.instructions_after, List.getElem?_toArray, List.getElem?_map, h,
    Option.map_some]

/-- Settling the jumps leaves the calls. -/
theorem getElem?_linkedCode_call {index : Nat} {name : String}
    (h : (index, name) ∈ calls rs) :
    (linkedCode rs)[index]?
      = some { opcode := .call,
               operand := targetOperand (index? rs) name } := by
  have hitem := getElem?_calls h
  have hjump : index ∉ (Code.jumpsOf (Code.appended (codeRequests rs))).map
      (·.1) := by
    intro hmem
    obtain ⟨⟨k, label⟩, href, rfl⟩ := List.mem_map.mp hmem
    obtain ⟨opcode, hjump⟩ := Code.mem_jumpsOf.mp href
    rw [hitem] at hjump
    cases hjump
  rw [linkedCode, getElem?_filled_of_not_mem hjump,
    getElem?_filled_of_mem (nodup_calls rs) h, getElem?_opened hitem]
  rfl

/-- Settling the calls leaves everything else for the jumps. -/
theorem getElem?_linkedCode_other (hfit : Fits rs)
    (hdefined : Code.undefinedLabels (codeRequests rs) = []) {index : Nat}
    {item : Code.Item}
    (hitem : (Code.appended (codeRequests rs))[index]? = some item)
    (hcall : ∀ name, (index, name) ∉ calls rs) :
    ∃ i, (linkedCode rs)[index]? = some i
      ∧ Code.Settles (codeRequests rs) item i := by
  have hnot : index ∉ (calls rs).map (·.1) := by
    intro hmem
    obtain ⟨⟨k, name⟩, href, rfl⟩ := List.mem_map.mp hmem
    exact hcall name href
  refine Code.settles_filled hfit.labels hdefined hitem ?_
  rw [getElem?_filled_of_not_mem hnot, getElem?_opened hitem]

/-- Parts that nothing is to be said against make the program that the
history asks for. -/
theorem linked_of_parts (hfit : Fits rs) (hdefined : complaints rs = [])
    {p : Program} (hconstants : p.constants = (constants rs).toArray)
    (hcode : p.code = linkedCode rs)
    (hfunctions : p.functions = ((declared rs).map (tableEntry rs)).toArray)
    (hentry : p.entry = entryIndex rs) : Linked rs p := by
  obtain ⟨hcalls, hstarts, hselected, hjumps, -⟩ :=
    complaints_eq_nil.mp hdefined
  refine ⟨by rw [hconstants], ?_, fun hnone => ?_, fun name hname => ?_, ?_,
    fun index name hmem => ?_, fun index item hitem hcall => ?_⟩
  · rw [hfunctions, List.forall₂_map_right_iff, List.forall₂_same]
    exact fun f hf => starts_tableEntry hstarts hf
  · rw [hentry, entryIndex, hnone]
  · obtain ⟨k, hk⟩ := exists_index?_iff.mpr (hselected name hname)
    obtain ⟨f, hf⟩ := functionNamed?_eq hfunctions hk
    refine ⟨f, ?_⟩
    rw [hf, hentry, entryIndex, hname]
    simp only [hk, Option.getD_some]
  · rw [hcode, linkedCode, size_filled, size_filled, Code.instructions_after,
      List.size_toArray, List.length_map, position]
  · obtain ⟨k, hk⟩ :=
      exists_index?_iff.mpr (hcalls name (mem_calls.mp ⟨index, hmem⟩))
    obtain ⟨f, hf⟩ := functionNamed?_eq hfunctions hk
    -- there are not more functions than an operand can tell apart
    have hlt : k < 0x80000000 :=
      Nat.lt_of_lt_of_le (index?_lt hk) hfit.functions
    refine ⟨k, f, _, hf,
      by rw [hcode, getElem?_linkedCode_call hmem], rfl, ?_, rfl⟩
    exact toInt_targetOperand hk hlt
  · rw [hcode]
    exact getElem?_linkedCode_other hfit (undefinedLabels_eq_nil.mpr hjumps)
      hitem hcall

/-- After every history whose positions, constants and functions fit operands,
the declared functions have names of their own, in the order of their first
declarations, and a name that is declared once more is refused and changes
nothing. A program is built exactly if every called function, every label that
a function starts at, the chosen entry and every label of a jump are there and
some function is declared. The program is then what the history asks for, and
otherwise the error is the first of all complaints: about calls, starts, the
entry, jumps and the table, in this order. -/
theorem build_links (hfit : Fits rs) :
    ((Draft.after rs).functions.toList = declared rs
      ∧ ((declared rs).map (·.name)).Nodup ∧
      ∀ name params locals start,
        ((Draft.after rs).declare name params locals start
          = .error (.duplicateFunction name)
          ↔ name ∈ names rs) ∧
        (name ∈ names rs →
          Draft.after (rs ++ [.declare name params locals start])
            = Draft.after rs)) ∧
    ((∃ p, (Draft.after rs).build = .ok p) ↔
      (∀ name, .call name ∈ rs → name ∈ names rs) ∧
      (∀ f ∈ declared rs, ∀ label, f.start = .inr label →
        .code (.mark label) ∈ rs) ∧
      (∀ name, selected rs = some name → name ∈ names rs) ∧
      (∀ opcode label, .code (.append (.jump opcode label)) ∈ rs →
        .code (.mark label) ∈ rs) ∧
      names rs ≠ []) ∧
    (∀ p, (Draft.after rs).build = .ok p → Linked rs p) ∧
    (∀ e, (Draft.after rs).build = .error e
      ↔ (complaints rs).head? = some e) := by
  have hfunctions := functions_after hfit
  have hdeclare : ∀ name params locals start,
      (Draft.after rs).declare name params locals start
        = .error (.duplicateFunction name)
        ↔ name ∈ names rs := by
    intro name params locals start
    -- the map of names knows the names of the table and no others
    rw [(indexed_after rs).declare_eq, hfunctions, ← mem_map_name_declared]
    simp
  refine ⟨⟨by rw [hfunctions], nodup_declared rs,
    fun name params locals start =>
      ⟨hdeclare name params locals start, fun hname => ?_⟩⟩, ?_⟩
  · rw [Draft.after_append_singleton, serve,
      (hdeclare name params locals start).mpr hname]
  · rw [← complaints_eq_nil]
    obtain ⟨e, hhead, hbuild⟩
      | ⟨hnil, p, hbuild, hconstants, hcode, htable, hentry⟩ :=
      build_cases hfit
    · have hne : complaints rs ≠ [] := by
        intro hnil
        rw [hnil] at hhead
        cases hhead
      simp [hbuild, hhead, hne]
    · have hlinked := linked_of_parts hfit hnil hconstants hcode htable hentry
      simp [hbuild, hnil, hlinked]

/-- A call and a jump forward, a function at a label, a name that is declared
twice, and an entry that is not the first function. -/
def outOfOrder : List Request :=
  [.declare "helper" 0 0 (.label "body"), .setEntry "main",
    .declare "main" 0 0 .here, .pushConstant (.bool true),
    .code (.append (.jump .jumpIfFalse "end")), .call "helper",
    .code (.mark "end"), .code (.append (.whole { opcode := .halt })),
    .declare "main" 1 1 .here, .code (.mark "body"),
    .code (.append (.whole { opcode := .ret }))]

/-- All its names are there, so it is built, and the second declaration was
refused. -/
theorem outOfOrder_links :
    (∃ p, (Draft.after outOfOrder).build = .ok p ∧ Linked outOfOrder p)
      ∧ (Draft.after outOfOrder).declare "helper" 2 2 .here
        = .error (.duplicateFunction "helper") := by
  have hfit : Fits outOfOrder :=
    ⟨fun label n h => Nat.lt_of_le_of_lt h.le (by decide),
      by decide, by decide⟩
  obtain ⟨⟨-, -, hdeclare⟩, hbuild, hlinked, -⟩ := build_links hfit
  obtain ⟨p, hp⟩ := hbuild.mpr (complaints_eq_nil.mp (by decide))
  exact ⟨⟨p, hp, hlinked p hp⟩,
    (hdeclare "helper" 2 2 .here).1.mpr (by decide)⟩

end StackMachine.Assembly.History
