/-
Verification and the machine judge an instruction alike. A defect of an
opcode, of an index into a table or of a slot foretells a fault of the same
instruction with the same index and count (`Defect.fault?`). Of the first two
kinds that is exact, in every program and whatever the operand stack holds
(`step_faults_iff_defect`): such a fault precedes every other that the
instruction may have. A slot is judged by the frame that executes the
instruction, so there the two agree where the frame is one of the owner; a
store may still fault earlier, for want of a value.

The two sides meet in `Foretells`, the conditions on the instruction alone.
Verification lists exactly these (`exists_defect_iff`), and the machine faults
under exactly these.
-/
import StackMachine.Proofs.Verification.Slots

namespace StackMachine

/-- Causes that the opcode and the tables of a program decide alone. -/
def Cause.isStatic : Cause → Bool
  | .unknownOpcode _ | .invalidConstant .. | .invalidFunction .. => true
  | _ => false

theorem Cause.isStatic_of_isOrdinary {c : Cause} (h : c.isOrdinary) :
    c.isStatic = false := by
  cases c with
  | unknownOpcode | invalidConstant | invalidFunction => cases h
  | _ => rfl

/-- Only one opcode refers to the constants. -/
theorem Opcode.eq_pushConst_of_operandKind {op : Opcode}
    (h : op.operandKind = .constant) :
    op = .pushConst := by
  cases op with
  | pushConst => rfl
  | _ => cases h

/-- Only one opcode refers to the functions. -/
theorem Opcode.eq_call_of_operandKind {op : Opcode}
    (h : op.operandKind = .function) :
    op = .call := by
  cases op with
  | call => rfl
  | _ => cases h

namespace Verification

variable {p : Program} {k : Nat} {i : Instruction} {d : Defect} {g : Fault}

-- ============================================================= vocabulary

/-- The fault that a defect foretells of its instruction. Jumps out of range
fault when they are taken, if at all, and what is unreachable or left over
faults never. -/
def Defect.fault? : Defect → Option Fault
  | .constantOutOfRange index operand count =>
    some ⟨index, .invalidConstant operand.toInt64 count⟩
  | .functionOutOfRange index operand count =>
    some ⟨index, .invalidFunction operand.toInt64 count⟩
  | .slotOutOfRange index operand slots =>
    some ⟨index, .invalidLocal operand.toInt64 slots⟩
  | .reservedOpcode index opcode => some ⟨index, .unknownOpcode opcode.code⟩
  | _ => none

/-- The instruction at `k` calls for a fault by its opcode or by an index that
is out of range; a slot is measured against the owner of the instruction. -/
inductive Foretells (p : Program) (k : Nat) (i : Instruction) : Fault → Prop
  | opcode (h : i.opcode.isReserved) :
    Foretells p k i ⟨k, .unknownOpcode i.opcode.code⟩
  | constant (hop : i.opcode = .pushConst)
    (h : ∀ n, i.index? = some n → p.constants.size ≤ n) :
    Foretells p k i ⟨k, .invalidConstant i.operand.toInt64 p.constants.size⟩
  | function (hop : i.opcode = .call)
      (h : ∀ n, i.index? = some n → p.functions.size ≤ n) :
    Foretells p k i ⟨k, .invalidFunction i.operand.toInt64 p.functions.size⟩
  | slot {o : Nat} {owner : Function} (hkind : i.opcode.operandKind = .slot)
    (howner : p.owner? k = some (o, owner))
    (h : ∀ n, i.index? = some n → owner.slots ≤ n) :
    Foretells p k i ⟨k, .invalidLocal i.operand.toInt64 owner.slots⟩

-- ====================================================== what is found

/-- A defect found instruction by instruction was found at one. -/
theorem mem_perInstruction {check : Nat → Instruction → List Defect} :
    d ∈ perInstruction p check
      ↔ ∃ k i, p.code[k]? = some i ∧ d ∈ check k i := by
  rw [perInstruction, List.mem_flatMap]
  constructor
  · rintro ⟨⟨i, k⟩, hmem, hd⟩
    rw [List.mk_mem_zipIdx_iff_getElem?, Array.getElem?_toList] at hmem
    exact ⟨k, i, hmem, hd⟩
  · rintro ⟨k, i, hi, hd⟩
    refine ⟨(i, k), ?_, hd⟩
    rw [List.mk_mem_zipIdx_iff_getElem?, Array.getElem?_toList]
    exact hi

/-- An operand that is not below a bound is no index, or one at or past it. -/
theorem operandBelow_eq_false_iff {bound : Nat} :
    operandBelow i bound = false ↔ ∀ n, i.index? = some n → bound ≤ n := by
  rw [← Bool.not_eq_true, operandBelow_iff, not_exists]
  simp only [not_and, Nat.not_lt]

/-- What a check of an operand finds, if anything. -/
theorem mem_ite_operandBelow {bound : Nat} {defect : Defect} :
    d ∈ (if operandBelow i bound then [] else [defect])
      ↔ d = defect ∧ ∀ n, i.index? = some n → bound ≤ n := by
  rw [← operandBelow_eq_false_iff]
  cases operandBelow i bound <;> simp

/-- A slot that the owner does not have foretells the fault of a frame of the
owner. -/
theorem foretells_of_slotDefects (hkind : i.opcode.operandKind = .slot)
    (hd : d ∈ slotDefects p k i) :
    d.index? = some k ∧ ∀ g, d.fault? = some g → Foretells p k i g := by
  unfold slotDefects at hd
  cases howner : p.owner? k with
  | none =>
      rw [howner] at hd
      obtain rfl := List.mem_singleton.mp hd
      exact ⟨rfl, nofun⟩
  | some owner =>
      rw [howner] at hd
      obtain ⟨rfl, hout⟩ := mem_ite_operandBelow.mp hd
      refine ⟨rfl, ?_⟩
      rintro g ⟨⟩
      exact .slot hkind howner hout

/-- What is found about an operand concerns its instruction, and what it
foretells holds of it. -/
theorem foretells_of_operandDefects (hd : d ∈ operandDefects p k i) :
    d.index? = some k ∧ ∀ g, d.fault? = some g → Foretells p k i g := by
  unfold operandDefects at hd
  cases hkind : i.opcode.operandKind with
  | constant =>
      rw [hkind] at hd
      obtain ⟨rfl, hout⟩ := mem_ite_operandBelow.mp hd
      refine ⟨rfl, ?_⟩
      rintro g ⟨⟩
      exact .constant (Opcode.eq_pushConst_of_operandKind hkind) hout
  | function =>
      rw [hkind] at hd
      obtain ⟨rfl, hout⟩ := mem_ite_operandBelow.mp hd
      refine ⟨rfl, ?_⟩
      rintro g ⟨⟩
      exact .function (Opcode.eq_call_of_operandKind hkind) hout
  | target =>
      rw [hkind] at hd
      obtain ⟨rfl, -⟩ := mem_ite_operandBelow.mp hd
      exact ⟨rfl, nofun⟩
  | slot =>
      rw [hkind] at hd
      exact foretells_of_slotDefects hkind hd
  | unused | syscall =>
      rw [hkind] at hd
      cases hd

/-- So does what is found about the form of an instruction. -/
theorem foretells_of_formDefects (hd : d ∈ formDefects k i) :
    d.index? = some k ∧ ∀ g, d.fault? = some g → Foretells p k i g := by
  rcases List.mem_append.mp hd with hd | hd
  · by_cases hreserved : i.opcode.isReserved
    · rw [if_pos hreserved] at hd
      obtain rfl := List.mem_singleton.mp hd
      refine ⟨rfl, ?_⟩
      rintro g ⟨⟩
      exact .opcode hreserved
    · rw [if_neg hreserved] at hd
      cases hd
  · by_cases hset : setsUnusedField i
    · rw [if_pos hset] at hd
      obtain rfl := List.mem_singleton.mp hd
      exact ⟨rfl, nofun⟩
    · rw [if_neg hset] at hd
      cases hd

/-- Whatever defect is found at an instruction, the fault it has a name for is
what it foretells. -/
theorem foretells_of_verify (hi : p.code[k]? = some i) (hd : d ∈ verify p)
    (hindex : d.index? = some k) (hg : d.fault? = some g) :
    Foretells p k i g := by
  -- a defect of an instruction is found at that instruction only
  have hown : ∀ {check : Nat → Instruction → List Defect},
      (∀ {k i}, d ∈ check k i → d.index? = some k ∧ ∀ g, d.fault? = some g →
        Foretells p k i g) →
      d ∈ perInstruction p check → Foretells p k i g := by
    intro check hcheck hmem
    obtain ⟨k', i', hi', hd'⟩ := mem_perInstruction.mp hmem
    obtain ⟨hindex', hforetells⟩ := hcheck hd'
    obtain rfl : k = k' := Option.some.inj (hindex.symm.trans hindex')
    obtain rfl : i = i' := Option.some.inj (hi.symm.trans hi')
    exact hforetells g hg
  rcases List.mem_append.mp hd with hd | hd
  · rcases List.mem_append.mp hd with hd | hd
    · rcases List.mem_append.mp hd with hd | hd
      · -- the size of the program is no defect of an instruction
        split at hd
        · obtain rfl := List.mem_singleton.mp hd
          cases hg
        · cases hd
      · exact hown foretells_of_operandDefects hd
    · rcases List.mem_append.mp hd with hd | hd
      · obtain ⟨⟨f, n⟩, -, hd⟩ := List.mem_flatMap.mp hd
        unfold entryDefects at hd
        split at hd
        · cases hd
        · obtain rfl := List.mem_singleton.mp hd
          cases hg
      · exact hown foretells_of_formDefects hd
  · obtain ⟨n, -, rfl⟩ := List.mem_map.mp hd
    cases hg

/-- What is found about an operand is among the defects of the program. -/
theorem mem_verify_of_operandDefects (hi : p.code[k]? = some i)
    (hd : d ∈ operandDefects p k i) :
    d ∈ verify p := by
  have hmem : d ∈ boundsDefects p :=
    List.mem_append_right _ (mem_perInstruction.mpr ⟨k, i, hi, hd⟩)
  exact List.mem_append_left _ (List.mem_append_left _ hmem)

/-- So is what is found about the form of an instruction. -/
theorem mem_verify_of_formDefects (hi : p.code[k]? = some i)
    (hd : d ∈ formDefects k i) :
    d ∈ verify p := by
  have hmem : d ∈ structureDefects p :=
    List.mem_append_right _ (mem_perInstruction.mpr ⟨k, i, hi, hd⟩)
  exact List.mem_append_left _ (List.mem_append_right _ hmem)

/-- Verification foretells of an instruction what its opcode and operand call
for. -/
theorem exists_defect_iff (hi : p.code[k]? = some i) :
    (∃ d ∈ verify p, d.index? = some k ∧ d.fault? = some g)
      ↔ Foretells p k i g := by
  constructor
  · rintro ⟨d, hd, hindex, hg⟩
    exact foretells_of_verify hi hd hindex hg
  · intro h
    cases h with
    | opcode hreserved =>
        refine ⟨.reservedOpcode k i.opcode, mem_verify_of_formDefects hi ?_,
          rfl, rfl⟩
        rw [formDefects, if_pos hreserved]
        exact List.mem_cons_self
    | constant hop hout =>
        refine ⟨.constantOutOfRange k i.operand p.constants.size,
          mem_verify_of_operandDefects hi ?_, rfl, rfl⟩
        rw [operandDefects, hop]
        exact mem_ite_operandBelow.mpr ⟨rfl, hout⟩
    | function hop hout =>
        refine ⟨.functionOutOfRange k i.operand p.functions.size,
          mem_verify_of_operandDefects hi ?_, rfl, rfl⟩
        rw [operandDefects, hop]
        exact mem_ite_operandBelow.mpr ⟨rfl, hout⟩
    | @slot o owner hkind howner hout =>
        refine ⟨.slotOutOfRange k i.operand owner.slots,
          mem_verify_of_operandDefects hi ?_, rfl, rfl⟩
        rw [operandDefects, hkind]
        simp only [slotDefects, howner]
        exact mem_ite_operandBelow.mpr ⟨rfl, hout⟩

end Verification

namespace Action

open Verification

variable {reenter : Reentry} {m : Machine} {f : Frame} {rest : Array Frame}
  {i : Instruction} {g : Fault}

-- ===================================================== what the machine does

/-- A step that executes an instruction which cannot go on faults as the
instruction does. -/
theorem step_of_execute {fault : Fault → Prop}
    (hrunning : m.haltRequested = false)
    (htop : m.calls.items = rest.push f) (hi : m.program.code[f.ip]? = some i)
    (hexecute : ∀ m', m'.program = m.program → m'.calls = m.calls →
      (execute reenter f.ip i).Ensures m' (fun _ _ => False)
      (fun g _ => fault g)) :
    (step reenter).Ensures m (fun _ _ => False) (fun g _ => fault g) := by
  have hiterate : (iterate reenter).Ensures { m with status := .running }
      (fun _ _ => False)
      (fun g _ => fault g) := by
    refine Ensures.fetched hrunning htop hi ?_
    exact Ensures.bind (fun _ _ => False) (hexecute _ rfl rfl)
      fun _ _ h => h.elim
  exact hiterate.step (fun _ h => h) (fun _ _ h => h) fun _ _ h => h

/-- What the opcode or a table decides is decided before anything else about
an instruction. -/
theorem execute_of_foretells {site : Nat} (hstatic : g.cause.isStatic)
    (h : Foretells m.program site i g) :
    (execute reenter site i).Ensures m (fun _ _ => False)
      (fun g' _ => g' = g) := by
  cases h with
  | opcode hreserved =>
      unfold execute
      cases hop : i.opcode with
      | cmpEq | cmpNe | cmpLe | cmpGt | cmpGe | not | and | or => rfl
      | _ =>
          rw [hop] at hreserved
          cases hreserved
  | constant hop hout =>
      unfold execute
      rw [hop]
      refine Ensures.get ?_
      have hnone : i.index?.bind (m.program.constants[·]?) = none := by
        cases hn : i.index? with
        | none => rfl
        | some n => exact Array.getElem?_eq_none_iff.mpr (hout n hn)
      rw [hnone]
      rfl
  | function hop hout =>
      unfold execute
      rw [hop]
      refine Ensures.get ?_
      have hnone :
          (i.index?.bind fun n => m.program.functions[n]?.map fun f => (n, f))
            = none := by
        cases hn : i.index? with
        | none => rfl
        | some n => simp [hout n hn]
      rw [hnone]
      rfl
  -- whether a slot is there depends on the frame
  | slot => cases hstatic

/-- An index is reported as the operand spells it. -/
theorem ofNat_index? {n : Nat} (hn : i.index? = some n) :
    Int64.ofNat n = i.operand.toInt64 := by
  have hoperand := Instruction.index?_eq_some_iff.mp hn
  have hlt := i.operand.toInt_lt
  rw [← Int64.toInt_inj, Int32.toInt_toInt64,
    Int64.toInt_ofNat_of_lt (by omega), hoperand]

/-- The fault of an instruction about its slot, if it has come to look at
that. -/
def SlotFaultOf (f : Frame) (i : Instruction) (g : Fault) : Prop :=
  g.cause.isSlot → g = ⟨f.ip, .invalidLocal i.operand.toInt64 f.locals.size⟩

/-- The slot that an instruction names is found, or it is negative and a
fault. -/
theorem slot_faultOf (htop : m.calls.items = rest.push f) :
    (slot f.ip i).Ensures m (fun n m' => m' = m ∧ i.index? = some n)
      (fun g _ => SlotFaultOf f i g) := by
  unfold slot
  cases hn : i.index? with
  | some n => exact ⟨rfl, rfl⟩
  | none =>
      refine Ensures.get ?_
      rw [Stack.top?_of_push htop]
      exact fun _ => rfl

/-- A load from a slot out of range faults on it. -/
theorem loadLocal_faultOf (htop : m.calls.items = rest.push f)
    (hout : ∀ n, i.index? = some n → f.locals.size ≤ n) :
    (loadLocal f.ip i).Ensures m (fun _ _ => False)
      (fun g _ => SlotFaultOf f i g) := by
  refine Ensures.bind _ (slot_faultOf htop) ?_
  rintro n m ⟨rfl, hn⟩
  refine Ensures.bind (fun g m' => g = f ∧ m' = m)
    (.ok (currentFrame_eq htop) ⟨rfl, rfl⟩) ?_
  rintro f m ⟨rfl, rfl⟩
  refine Ensures.bind (fun _ _ => False) ?_ fun _ _ h => h.elim
  have hnone : f.locals[n]? = none :=
    Array.getElem?_eq_none_iff.mpr (hout n hn)
  unfold Ensures onFrame Frame.getLocal
  rw [hnone]
  intro _
  rw [← ofNat_index? hn]
  rfl

/-- A store to one does so too, or finds nothing to store. -/
theorem storeLocal_faultOf (htop : m.calls.items = rest.push f)
    (hout : ∀ n, i.index? = some n → f.locals.size ≤ n) :
    (storeLocal f.ip i).Ensures m (fun _ _ => False)
      (fun g _ => SlotFaultOf f i g) := by
  refine Ensures.bind _ (slot_faultOf htop) ?_
  rintro n m ⟨rfl, hn⟩
  refine Ensures.bind (fun _ m' => m'.calls = m.calls)
    (popOperand_ensures (fun _ _ => rfl) fun _ => nofun) ?_
  intro v m₁ hcalls
  have htop₁ : m₁.calls.items = rest.push f := by
    rw [hcalls]
    exact htop
  refine Ensures.bind (fun g _ => g = f) (.ok (currentFrame_eq htop₁) rfl) ?_
  rintro f m₁ rfl
  refine Ensures.bind (fun _ _ => False) ?_ fun _ _ h => h.elim
  unfold Ensures onFrame Frame.setLocal
  rw [if_neg (Nat.not_lt.mpr (hout n hn))]
  intro _
  rw [← ofNat_index? hn]
  rfl

/-- These are the two instructions with a slot for their operand. -/
theorem execute_faultOf (hkind : i.opcode.operandKind = .slot)
    (htop : m.calls.items = rest.push f)
    (hout : ∀ n, i.index? = some n → f.locals.size ≤ n) :
    (execute reenter f.ip i).Ensures m (fun _ _ => False)
      (fun g _ => SlotFaultOf f i g) := by
  unfold execute
  cases hop : i.opcode with
  | loadLocal => exact loadLocal_faultOf htop hout
  | storeLocal => exact storeLocal_faultOf htop hout
  | _ =>
      rw [hop] at hkind
      cases hkind

/-- What an instruction other than a system call faults with is its own
fault. -/
theorem blame_of_step {m' : Machine} (htop : m.calls.items = rest.push f)
    (hi : m.program.code[f.ip]? = some i) (hop : i.opcode ≠ .syscall)
    (hrun : step reenter m = .error (.fault g) m') :
    Blame (fun _ => False) m.program f i g := by
  have hsame : ∀ {rest' : Array Frame} {f' : Frame},
      m.calls.items = rest'.push f' → f = f' :=
    fun htop' => (Array.push_eq_push.mp (htop.symm.trans htop')).1
  have hserved : ServedBeside (fun _ => False) reenter
      { m with status := .running } := by
    intro rest' f' i' _ htop' hi' hop'
    obtain rfl := hsame htop'
    obtain rfl := Option.some.inj (hi.symm.trans hi')
    exact absurd hop' hop
  obtain ⟨-, hblamed⟩ := (step_ensures_of_served hserved).of_fault hrun
  cases hblamed with
  -- the frame stands at an instruction, so its counter is not to blame
  | counter htop' hip =>
      obtain rfl := hsame htop'
      have hlt : f.ip < m.program.length :=
        (Array.getElem?_eq_some_iff.mp hi).1
      omega
  | instruction htop' hi' hblame =>
      obtain rfl := hsame htop'
      obtain rfl := Option.some.inj (hi.symm.trans hi')
      exact hblame

end Action

namespace Verification

variable {m : Machine} {f : Frame} {rest : Array Frame} {i : Instruction}

/-- What an instruction is blamed for, hosts apart, it foretells if the code
alone can tell. -/
theorem foretells_of_blame {p : Program} {g : Fault}
    (h : Blame (fun _ => False) p f i g) (hstatic : g.cause.isStatic) :
    Foretells p f.ip i g := by
  cases h with
  | host hraised => exact hraised.elim
  | ordinary hordinary =>
      rw [Cause.isStatic_of_isOrdinary hordinary] at hstatic
      cases hstatic
  | opcode hreserved => exact .opcode hreserved
  | constant hop hout => exact .constant hop hout
  | function hop hout => exact .function hop hout
  | target | slot => cases hstatic

/-- In every state of every program that stands at an instruction other than a
system call, with no halt pending: the step faults on an opcode, a constant or
a function exactly if verification reports that of the instruction, with the
same index and count. If the running frame is one of the function that owns
the instruction and has its slots, then verification reports every slot that
the step faults on, with the same index and count. -/
theorem step_faults_iff_defect (reenter : Reentry)
    (hrunning : m.haltRequested = false) (htop : m.calls.items = rest.push f)
    (hi : m.program.code[f.ip]? = some i) (hop : i.opcode ≠ .syscall) :
    (∀ g, g.cause.isStatic →
      ((∃ m', Action.step reenter m = .error (.fault g) m') ↔
        ∃ d ∈ verify m.program, d.index? = some f.ip ∧ d.fault? = some g)) ∧
    (∀ own, m.program.owner? f.ip = some (f.function, own) →
      f.locals.size = own.slots →
      ∀ g m', g.cause.isSlot → Action.step reenter m = .error (.fault g) m' →
        ∃ d ∈ verify m.program, d.index? = some f.ip ∧ d.fault? = some g) := by
  refine ⟨fun g hstatic => ?_, fun own howner hsize g m' hslot hrun => ?_⟩
  · rw [exists_defect_iff hi]
    constructor
    · rintro ⟨m', hrun⟩
      exact foretells_of_blame (Action.blame_of_step htop hi hop hrun) hstatic
    · intro hforetells
      have hstep : (Action.step reenter).Ensures m (fun _ _ => False)
          (fun g' _ => g' = g) :=
        Action.step_of_execute hrunning htop hi fun m' hprogram _ =>
          Action.execute_of_foretells hstatic (hprogram ▸ hforetells)
      obtain ⟨g', m', hrun, rfl⟩ := hstep.exists_fault
      exact ⟨m', hrun⟩
  · rw [exists_defect_iff hi]
    cases Action.blame_of_step htop hi hop hrun with
    | host hraised => exact hraised.elim
    | ordinary hordinary =>
        rw [Cause.isSlot_of_isOrdinary hordinary] at hslot
        cases hslot
    | slot hkind hout =>
        have hstep : (Action.step reenter).Ensures m (fun _ _ => False)
            (fun g _ => Action.SlotFaultOf f i g) := by
          refine Action.step_of_execute hrunning htop hi fun m' _ hcalls => ?_
          exact Action.execute_faultOf hkind (hcalls ▸ htop) hout
        -- the verifier asks for the slots of the owner, the machine for
        -- those of the frame, and here they are as many
        rw [hstep.of_fault hrun rfl, hsize]
        rw [hsize] at hout
        exact .slot hkind howner hout
    | _ => cases hslot

/-- Pushes a constant that is not there and stores to a slot that is not
there. -/
def misindexed : Program where
  constants := #[]
  code :=
    #[{ opcode := .pushConst, operand := -1 },
      { opcode := .storeLocal, operand := 2 }]
  functions := #[⟨"main", 0, 0, 1⟩]
  entry := 0
  entry_lt := Nat.zero_lt_one

/-- Stands at one of its instructions, with a full operand stack. -/
def misindexedAt (index : Nat) : Machine :=
  { Machine.new misindexed with
    operands := ⟨1, #[.null]⟩
    calls := ⟨1, #[⟨0, index, none, #[.null]⟩]⟩ }

theorem misindexedAt_frames (index : Nat) :
    (misindexedAt index).calls.items = #[].push ⟨0, index, none, #[.null]⟩ :=
      rfl

/-- The constant is found missing before the stack is found full, as reported;
and the fault of the store is reported. -/
theorem misindexed_foretold :
    (∃ m', Action.step (Action.advance 0) (misindexedAt 0)
        = .error (.fault ⟨0, .invalidConstant (-1) 0⟩) m')
      ∧ ∃ d ∈ verify misindexed,
        d.index? = some 1 ∧ d.fault? = some ⟨1, .invalidLocal 2 1⟩ := by
  constructor
  · have hdefect : .constantOutOfRange 0 (-1) 0 ∈ verify misindexed :=
      mem_verify_of_operandDefects (k := 0) rfl (List.mem_singleton_self _)
    refine ((step_faults_iff_defect (Action.advance 0) rfl
      (misindexedAt_frames 0) rfl nofun).1 _ rfl).mpr ?_
    exact ⟨_, hdefect, rfl, rfl⟩
  · have hown : misindexed.owner? 1 = some (0, ⟨"main", 0, 0, 1⟩) := by decide
    obtain ⟨m', hrun⟩ : ∃ m', Action.step (Action.advance 0) (misindexedAt 1)
        = .error (.fault ⟨1, .invalidLocal 2 1⟩) m' := ⟨_, rfl⟩
    exact (step_faults_iff_defect (Action.advance 0) rfl
      (misindexedAt_frames 1) rfl nofun).2 _ hown rfl _ m' rfl hrun

end Verification

end StackMachine
