/-
What a text can be assembled to. The statements of a line are well formed
(`ofLine_sound`): names are words that read back as names, counts fit 64 bits
with a sign, decimal literals are never the least mantissa, and only opcodes
that take an operand are given one. Carrying statements out keeps the draft
sound, building keeps what the program inherits of that, and what remains at
the end is all that a listing has to rely on (`assembled_listable`).
-/
import StackMachine.Proofs.Assembly.Literals
import StackMachine.Proofs.Assembly.Names

namespace StackMachine

-- ====================================================== actions that fail

theorem exists_of_bind_ok {ε α β : Type} {x : Except ε α} {f : α → Except ε β}
    {b : β} (h : x >>= f = .ok b) : ∃ a, x = .ok a ∧ f a = .ok b := by
  cases x with
  | error e => cases h
  | ok a => exact ⟨a, rfl, h⟩

/-- A result that was mapped is the image of one. -/
theorem exists_of_map_ok {ε α β : Type} {x : Except ε α} {f : α → β} {b : β}
    (h : f <$> x = .ok b) : ∃ a, x = .ok a ∧ f a = b := by
  cases x with
  | error e => cases h
  | ok a =>
      cases h
      exact ⟨a, rfl, rfl⟩

/-- What every step keeps, a fold keeps. -/
theorem foldlM_invariant {ε α β : Type} {f : β → α → Except ε β}
    (inv : β → Prop) {xs : List α}
    (hstep : ∀ b b', ∀ x ∈ xs, inv b → f b x = .ok b' → inv b') {b b' : β}
    (hb : inv b) (h : xs.foldlM f b = .ok b') : inv b' := by
  induction xs generalizing b with
  | nil =>
      cases h
      exact hb
  | cons x xs ih =>
      rw [List.foldlM_cons] at h
      obtain ⟨b₁, h₁, h⟩ := exists_of_bind_ok h
      exact ih (fun b b' y hy => hstep b b' y (List.mem_cons_of_mem x hy))
        (hstep b b₁ x List.mem_cons_self hb h₁) h

-- ======================================================== decimal literals

namespace Decimal

/-- A mantissa with its sign has a magnitude that is in range itself. -/
theorem natAbs_lt_of_mantissa? {negative : Bool} {digits : List Char}
    {m : Wide} (h : mantissa? negative digits = some m) :
    m.val.natAbs < 0x80000000000000000000000000000000 := by
  rw [mantissa?_eq] at h
  split at h
  · next hin =>
    have hsmall := inWideRange_natCast.mp hin
    cases h
    show (signed negative (Text.decimalNumber digits)).natAbs < _
    unfold signed
    split <;> omega
  · cases h

/-- The mantissa of an unsigned literal is never the least one, which has no
positive counterpart to be read first. -/
theorem ofUnsigned_mantissa {negative : Bool} {body : List Char} {d : Decimal}
    (h : ofUnsigned negative body = .ok d) :
    d.mantissa ≠ -0x80000000000000000000000000000000 := by
  unfold ofUnsigned at h
  simp only at h
  split at h
  · cases h
  · split at h
    · cases h
    · split at h
      · split at h
        · next m hm =>
          cases h
          have hsmall := natAbs_lt_of_mantissa? hm
          have hle := natAbs_reduce_le m.val (splitPoint body).2.length
          intro hleast
          have hval : (reduce m.val (splitPoint body).2.length).1
              = -0x80000000000000000000000000000000 := hleast
          omega
        · cases h
      · cases h

/-- No literal spells the least mantissa. -/
theorem ofText_mantissa {text : String} {d : Decimal}
    (h : ofText text = .ok d) :
    d.mantissa ≠ -0x80000000000000000000000000000000 := by
  unfold ofText at h
  split at h
  · exact ofUnsigned_mantissa h
  · exact ofUnsigned_mantissa h
  · exact ofUnsigned_mantissa h

end Decimal

namespace Assembly

-- ============================================================== statements

namespace Statement

open Token

/-- A value that some literal spells. -/
def Spelt : Value → Prop
  | .decimal d => d.mantissa ≠ -0x80000000000000000000000000000000
  | _ => True

/-- What every statement of a line satisfies. -/
def Sound : Statement → Prop
  | .label _ => True
  | .constant v => Spelt v
  | .function name params locals start =>
    IsName name ∧ params < 0x8000000000000000 ∧ locals < 0x8000000000000000
      ∧ ∀ n, start = .index n → n < 0x8000000000000000
  | .entry _ => True
  | .instruction opcode operand =>
    operand = .absent ∨ opcode.operandKind ≠ .unused

/-- A name that was taken stood at the front. -/
theorem takeName_ok {head name : String} {expected : Nat}
    {args rest : List Token}
    (h : takeName head expected args = .ok (name, rest)) :
    args = .ident name :: rest := by
  unfold takeName at h
  split at h
  · cases h
  · cases h
    rfl
  · cases h

/-- A count that was taken fits 64 bits with a sign. -/
theorem takeCount_ok {head : String} {expected n : Nat}
    {args rest : List Token}
    (h : takeCount head expected args = .ok (n, rest)) :
    n < 0x8000000000000000 := by
  unfold takeCount at h
  split at h
  · cases h
  · obtain ⟨m, hm, heq⟩ := exists_of_map_ok h
    cases heq
    exact (Literal.count?_eq_some_iff.mp (spelled_eq_ok_iff.mp hm)).2
  · cases h

/-- So does an index that was taken for a start. -/
theorem takeStart_ok {args rest : List Token} {n : Nat}
    (h : takeStart args = .ok (.index n, rest)) : n < 0x8000000000000000 := by
  unfold takeStart at h
  split at h
  · cases h
  · cases h
  · obtain ⟨m, hm, heq⟩ := exists_of_map_ok h
    cases heq
    exact (Literal.count?_eq_some_iff.mp (spelled_eq_ok_iff.mp hm)).2
  · cases h

/-- Declarations have a name that was scanned and counts that were taken. -/
theorem ofFunction_sound {args : List Token} {s : Statement}
    (hnames : ∀ name, .ident name ∈ args → IsName name)
    (h : ofFunction args = .ok s) :
    s.Sound := by
  unfold ofFunction at h
  obtain ⟨⟨name, args₁⟩, hname, h⟩ := exists_of_bind_ok h
  obtain ⟨⟨params, args₂⟩, hparams, h⟩ := exists_of_bind_ok h
  obtain ⟨⟨locals, args₃⟩, hlocals, h⟩ := exists_of_bind_ok h
  obtain ⟨⟨start, args₄⟩, hstart, h⟩ := exists_of_bind_ok h
  obtain ⟨_, -, h⟩ := exists_of_bind_ok h
  cases h
  refine ⟨hnames name ?_, takeCount_ok hparams, takeCount_ok hlocals, ?_⟩
  · rw [takeName_ok hname]
    exact List.mem_cons_self
  · rintro n rfl
    exact takeStart_ok hstart

/-- A value that was read from a literal is one that a literal spells. -/
theorem literal?_spelt {kind : Kind} {token : Token} {v : Value}
    (h : literal? kind token = some v) : Spelt v := by
  unfold literal? at h
  split at h
  · obtain ⟨n, -, rfl⟩ := Option.map_eq_some_iff.mp h
    trivial
  · obtain ⟨x, -, rfl⟩ := Option.map_eq_some_iff.mp h
    trivial
  · obtain ⟨x, -, rfl⟩ := Option.map_eq_some_iff.mp h
    trivial
  · -- only a decimal number is limited in what it can be read from
    next text =>
    obtain ⟨d, hd, rfl⟩ := Option.map_eq_some_iff.mp h
    cases hof : Decimal.ofText text with
    | error e =>
        rw [hof] at hd
        cases hd
    | ok d' =>
        rw [hof] at hd
        cases hd
        exact Decimal.ofText_mantissa hof
  · split at h
    · cases h
      trivial
    · split at h
      · cases h
        trivial
      · cases h
  · cases h
    trivial
  · cases h

/-- Constants hold what their literal spells; null has none and needs none. -/
theorem ofConstant_sound {args : List Token} {s : Statement}
    (h : ofConstant args = .ok s) :
    s.Sound := by
  unfold ofConstant at h
  obtain ⟨⟨kind, args₁⟩, -, h⟩ := exists_of_bind_ok h
  simp only at h
  split at h
  · obtain ⟨_, hv, h⟩ := exists_of_bind_ok h
    obtain ⟨_, -, h⟩ := exists_of_bind_ok h
    cases hv
    cases h
    trivial
  · obtain ⟨⟨v, args₂⟩, hv, h⟩ := exists_of_bind_ok h
    obtain ⟨_, -, h⟩ := exists_of_bind_ok h
    cases h
    unfold takeLiteral at hv
    split at hv
    · cases hv
    · split at hv
      · next hliteral =>
        cases hv
        exact literal?_spelt hliteral
      · cases hv

/-- The choice of an entry asks nothing of its name. -/
theorem ofEntry_sound {args : List Token} {s : Statement}
    (h : ofEntry args = .ok s) : s.Sound := by
  unfold ofEntry at h
  obtain ⟨_, -, h⟩ := exists_of_bind_ok h
  obtain ⟨_, -, h⟩ := exists_of_bind_ok h
  cases h
  trivial

/-- Every directive makes a statement that is well formed. -/
theorem ofDirective_sound {name : String} {args : List Token} {s : Statement}
    (hnames : ∀ name, .ident name ∈ args → IsName name)
    (h : ofDirective name args = .ok s) :
    s.Sound := by
  unfold ofDirective at h
  split at h
  · exact ofConstant_sound h
  · split at h
    · exact ofFunction_sound hnames h
    · split at h
      · exact ofEntry_sound h
      · cases h

/-- An operand is only taken for an opcode that has one. -/
theorem ofInstruction_sound {mnemonic : String} {args : List Token}
    {s : Statement} (h : ofInstruction mnemonic args = .ok s) : s.Sound := by
  unfold ofInstruction at h
  split at h
  · cases h
  · next opcode hopcode =>
    simp only at h
    split at h
    · obtain ⟨_, hoperand, h⟩ := exists_of_bind_ok h
      obtain ⟨_, -, h⟩ := exists_of_bind_ok h
      cases hoperand
      cases h
      exact .inl rfl
    · next hused =>
      obtain ⟨_, -, h⟩ := exists_of_bind_ok h
      obtain ⟨_, -, h⟩ := exists_of_bind_ok h
      cases h
      exact .inr hused

/-- Labels come before one directive or instruction, and each statement is
well formed by itself. -/
theorem ofTokens_sound {tokens : List Token} {ss : List Statement}
    (hnames : ∀ name, .ident name ∈ tokens → IsName name)
    (h : ofTokens tokens = .ok ss) :
    ∀ s ∈ ss, s.Sound := by
  have hsingle : ∀ {x : Except LineError Statement} {ss : List Statement},
      (fun s => [s]) <$> x = .ok ss → (∀ {s}, x = .ok s → s.Sound) →
        ∀ s ∈ ss, s.Sound := by
    intro x ss hx hsound s hs
    obtain ⟨s', hs', rfl⟩ := exists_of_map_ok hx
    obtain rfl := List.mem_singleton.mp hs
    exact hsound hs'
  induction tokens generalizing ss with
  | nil =>
      cases h
      exact fun s hs => absurd hs List.not_mem_nil
  | cons token rest ih =>
      have hrest : ∀ name, .ident name ∈ rest → IsName name :=
        fun name hname => hnames name (List.mem_cons_of_mem token hname)
      cases token with
      | label name =>
          obtain ⟨ss', hss', rfl⟩ := exists_of_map_ok h
          intro s hs
          rcases List.mem_cons.mp hs with rfl | hs
          · trivial
          · exact ih hrest hss' s hs
      | directive name => exact hsingle h fun hs => ofDirective_sound hrest hs
      | ident mnemonic => exact hsingle h fun hs => ofInstruction_sound hs
      | number text => cases h
      | string text => cases h

/-- The statements of a line are well formed: its identifiers were scanned, so
they are names. -/
theorem ofLine_sound {line : List Char} {ss : List Statement}
    (h : ofLine line = .ok ss) :
    ∀ s ∈ ss, s.Sound := by
  unfold ofLine at h
  cases hscan : Token.scan line with
  | error e =>
      rw [hscan] at h
      cases h
  | ok tokens =>
      rw [hscan] at h
      exact ofTokens_sound (fun name hname => isName_of_scan hscan hname) h

end Statement

-- ================================================================== drafts

/-- Nothing in the fields that the opcode does not use. -/
def Tidy (i : Instruction) : Prop :=
  i.spare = 0 ∧ (i.opcode.operandKind = .unused → i.operand = 0)

/-- The instruction at an index has an operand. -/
def TakesOperand (is : Array Instruction) (index : Nat) : Prop :=
  ∃ op, (is.map (·.opcode))[index]? = some op ∧ op.operandKind ≠ .unused

/-- An instruction that takes an operand still does so when more are
appended. -/
theorem TakesOperand.push {is : Array Instruction} {index : Nat}
    (h : TakesOperand is index) (i : Instruction) :
    TakesOperand (is.push i) index := by
  obtain ⟨op, hop, hkind⟩ := h
  refine ⟨op, ?_, hkind⟩
  rw [Array.map_push, Array.getElem?_push, if_neg, hop]
  have hlt := (Array.getElem?_eq_some_iff.mp hop).1
  omega

theorem takesOperand_push_self {is : Array Instruction} {i : Instruction}
    (h : i.opcode.operandKind ≠ .unused) :
    TakesOperand (is.push i) is.size := by
  refine ⟨i.opcode, ?_, h⟩
  rw [Array.map_push, Array.getElem?_push, if_pos (Array.size_map).symm]

/-- What every draft satisfies that statements of lines were carried out
on. -/
structure Draft.Sound (d : Draft) : Prop where
  names : ∀ f ∈ d.functions, Token.IsName f.name
  indexed : d.Indexed
  counts : ∀ f ∈ d.functions,
    f.params < 0x8000000000000000 ∧ f.locals < 0x8000000000000000
  /-- A start beyond the code was written as a count. -/
  starts : ∀ f ∈ d.functions, ∀ n, f.start = .inl n →
    n < 0x8000000000000000 ∨ n ≤ d.code.position
  labels : ∀ l ∈ d.code.labels, l.2 ≤ d.code.position
  constants : ∀ v ∈ d.constants, Statement.Spelt v
  tidy : ∀ i ∈ d.code.instructions, Tidy i
  calls : ∀ ref ∈ d.calls, TakesOperand d.code.instructions ref.1
  jumps : ∀ ref ∈ d.code.jumps, TakesOperand d.code.instructions ref.1

namespace Draft

variable {d d' : Draft}

theorem sound_empty : Draft.Sound {} := by
  constructor <;> simp [indexed_empty]

/-- A label is bound within the code or right behind it. -/
theorem Sound.label_le (h : d.Sound) {label : String} {n : Nat}
    (hlabel : d.code.label? label = some n) : n ≤ d.code.position := by
  obtain ⟨l₁, l₂, hsplit, -⟩ := List.lookup_eq_some_iff.mp hlabel
  refine h.labels (label, n) ?_
  rw [hsplit]
  exact List.mem_append_right _ List.mem_cons_self

/-- Appending an instruction, with a reference to it or without. -/
theorem Sound.emit (h : d.Sound) {i : Instruction} (hi : Tidy i)
    {jumps calls : Array (Nat × String)}
    (hjumps : ∀ ref ∈ jumps, ref ∈ d.code.jumps
      ∨ ref.1 = d.code.position ∧ i.opcode.operandKind ≠ .unused)
    (hcalls : ∀ ref ∈ calls, ref ∈ d.calls
      ∨ ref.1 = d.code.position ∧ i.opcode.operandKind ≠ .unused) :
    Draft.Sound
      { d with
        code := { d.code with
          instructions := d.code.instructions.push i, jumps }
        calls } := by
  have hposition : d.code.position ≤ (d.code.instructions.push i).size := by
    rw [Array.size_push]
    exact Nat.le_succ _
  -- a reference is to an instruction before or to this one
  have hrefs : ∀ {refs : Array (Nat × String)},
      (∀ ref ∈ refs, TakesOperand d.code.instructions ref.1) →
      ∀ {ref : Nat × String}, (ref ∈ refs ∨ ref.1 = d.code.position
        ∧ i.opcode.operandKind ≠ .unused) →
          TakesOperand (d.code.instructions.push i) ref.1 := by
    intro refs hrefs ref href
    rcases href with hmem | ⟨hindex, hkind⟩
    · exact (hrefs ref hmem).push i
    · rw [hindex]
      exact takesOperand_push_self hkind
  refine ⟨h.names, h.indexed.of_eq rfl rfl, h.counts, fun f hf n hn => ?_,
    fun l hl => ?_, h.constants, fun j hj => ?_,
    fun ref href => hrefs h.calls (hcalls ref href),
    fun ref href => hrefs h.jumps (hjumps ref href)⟩
  · exact (h.starts f hf n hn).imp_right fun hle => Nat.le_trans hle hposition
  · exact Nat.le_trans (h.labels l hl) hposition
  · rcases Array.mem_push.mp hj with hj | rfl
    · exact h.tidy j hj
    · exact hi

/-- Appending an instruction notes a reference only if it takes an operand,
and notes it at its own position. -/
theorem Sound.instruction (h : d.Sound) {opcode : Opcode} {operand : Operand}
    (hs : (Statement.instruction opcode operand).Sound)
    (hd : d.apply (.instruction opcode operand) = .ok d') : d'.Sound := by
  have hold : ∀ {refs : Array (Nat × String)} {i : Instruction},
      ∀ ref ∈ refs, ref ∈ refs
      ∨ ref.1 = d.code.position ∧ i.opcode.operandKind ≠ .unused :=
    fun _ href => .inl href
  have hnew : ∀ {refs : Array (Nat × String)} {i : Instruction}
      {name : String},
      i.opcode.operandKind ≠ .unused →
        ∀ ref ∈ refs.push (d.code.position, name), ref ∈ refs
        ∨ ref.1 = d.code.position ∧ i.opcode.operandKind ≠ .unused := by
    intro refs i name hkind ref href
    rcases Array.mem_push.mp href with href | rfl
    · exact .inl href
    · exact .inr ⟨rfl, hkind⟩
  cases operand with
  | absent =>
      cases hd
      exact h.emit ⟨rfl, fun _ => rfl⟩ hold hold
  | number n =>
      have hkind := hs.resolve_left (fun heq => nomatch heq)
      cases hd
      exact h.emit ⟨rfl, fun hunused => absurd hunused hkind⟩ hold hold
  | label name =>
      have hkind := hs.resolve_left (fun heq => nomatch heq)
      cases hd
      exact h.emit ⟨rfl, fun _ => rfl⟩ (hnew hkind) hold
  | function name =>
      cases hd
      exact h.emit (i := { opcode := .call }) ⟨rfl, fun _ => rfl⟩ hold
        (hnew (i := { opcode := .call }) (by decide))

/-- A label is bound to the position of the next instruction, so no
label is past it. -/
theorem Sound.mark (h : d.Sound) {name : String} (hd : d.mark name = .ok d') :
    d'.Sound := by
  unfold Draft.mark Code.mark at hd
  split at hd
  · cases hd
  · cases hd
    refine { h with
      indexed := h.indexed.of_eq rfl rfl
      labels := fun l hl => ?_ }
    rcases List.mem_cons.mp hl with rfl | hl
    · exact Nat.le_refl _
    · exact h.labels l hl

/-- A declaration brings its name, its counts and its start with it. -/
theorem Sound.declare (h : d.Sound) {name : String} {params locals : Nat}
    {start : Start} (hs : (Statement.function name params locals start).Sound)
    (hd : d.declare name params locals start = .ok d') : d'.Sound := by
  obtain ⟨hname, hparams, hlocals, hindex⟩ := hs
  have hindexed := h.indexed.declare hd
  unfold Draft.declare at hd
  split at hd
  · cases hd
  · cases hd
    refine { h with
      names := ?_, indexed := hindexed, counts := ?_, starts := ?_ }
    · intro f hf
      rcases Array.mem_push.mp hf with hf | rfl
      · exact h.names f hf
      · exact hname
    · intro f hf
      rcases Array.mem_push.mp hf with hf | rfl
      · exact h.counts f hf
      · exact ⟨hparams, hlocals⟩
    · intro f hf n hn
      rcases Array.mem_push.mp hf with hf | rfl
      · exact h.starts f hf n hn
      · cases start with
        | here =>
            cases hn
            exact .inr (Nat.le_refl _)
        | index k =>
            cases hn
            exact .inl (hindex n rfl)
        | label label => cases hn

/-- Carrying out a statement of a line keeps the draft sound. -/
theorem Sound.apply (h : d.Sound) {s : Statement} (hs : s.Sound)
    (hd : d.apply s = .ok d') :
    d'.Sound := by
  cases s with
  | label name => exact h.mark hd
  | constant v =>
      cases hd
      refine { h with
        indexed := h.indexed.of_eq rfl rfl
        constants := fun w hw => ?_ }
      rcases Array.mem_push.mp hw with hw | rfl
      · exact h.constants w hw
      · exact hs
  | function name params locals start => exact h.declare hs hd
  | entry name =>
      cases hd
      exact { h with indexed := h.indexed.of_eq rfl rfl }
  | instruction opcode operand => exact h.instruction hs hd

end Draft

/-- A line that is carried out keeps the draft sound. -/
theorem Reading.readLine_sound {r r' : Reading} {line : List Char × Nat}
    (h : r.draft.Sound) (hr : r.readLine line = .ok r') : r'.draft.Sound := by
  unfold Reading.readLine at hr
  split at hr
  · cases hr
  · next ss hss =>
    have hsound := Statement.ofLine_sound hss
    refine foldlM_invariant (fun r => r.draft.Sound) ?_ h hr
    intro r r' s hs hr hstep
    rw [Reading.step_eq] at hstep
    split at hstep
    · next hd =>
      cases hstep
      exact hr.apply (hsound s hs) hd
    · cases hstep

/-- A text that was read to the end leaves a sound draft. -/
theorem Reading.readLines_sound {r : Reading} {lines : List (List Char × Nat)}
    (hr : Reading.readLines {} lines = .ok r) : r.draft.Sound :=
  foldlM_invariant (fun r => r.draft.Sound)
    (fun _ _ _ _ h hline => readLine_sound h hline)
    Draft.sound_empty hr

-- ================================================================ building

/-- Tidy instructions with the opcodes that the draft has. -/
structure Resolved (d : Draft) (is : Array Instruction) : Prop where
  opcodes : is.map (·.opcode) = d.code.instructions.map (·.opcode)
  tidy : ∀ i ∈ is, Tidy i

/-- An operand that is filled in changes no opcode and goes where one is
taken. -/
theorem Resolved.setOperand {d : Draft} {is : Array Instruction}
    (h : Resolved d is) {index : Nat}
    (hindex : TakesOperand d.code.instructions index) (operand : Int32) :
    Resolved d (Code.setOperand is index operand) := by
  obtain ⟨op, hop, hkind⟩ := hindex
  rw [← h.opcodes] at hop
  constructor
  · rw [← h.opcodes]
    refine Array.ext_getElem? fun k => ?_
    rw [Code.setOperand, Array.getElem?_map, Array.getElem?_modify,
      Array.getElem?_map]
    split
    · rw [Option.map_map]
      rfl
    · rfl
  · intro i hi
    obtain ⟨k, hk⟩ := Array.mem_iff_getElem?.mp hi
    rw [Code.setOperand, Array.getElem?_modify] at hk
    split at hk
    · next heq =>
      subst heq
      obtain ⟨j, hj, rfl⟩ := Option.map_eq_some_iff.mp hk
      rw [Array.getElem?_map, hj] at hop
      cases hop
      -- the operand goes to an opcode that takes one
      exact ⟨(h.tidy j (Array.mem_of_getElem? hj)).1,
        fun hunused => absurd hunused hkind⟩
    · exact h.tidy i (Array.mem_of_getElem? hk)

/-- Settling a call fills in one operand. -/
theorem Resolved.resolveCall {d : Draft} {is is' : Array Instruction}
    (h : Resolved d is) {ref : Nat × String}
    (href : TakesOperand d.code.instructions ref.1)
    (hresolve : d.resolveCall is ref = .ok is') : Resolved d is' := by
  unfold Draft.resolveCall at hresolve
  split at hresolve
  · cases hresolve
  · obtain ⟨operand, -, hresolve⟩ := exists_of_bind_ok hresolve
    cases hresolve
    exact h.setOperand href operand

/-- Settling a jump fills in one operand. -/
theorem Resolved.resolve {d : Draft} {c : Code} {is is' : Array Instruction}
    (h : Resolved d is) {ref : Nat × String}
    (href : TakesOperand d.code.instructions ref.1)
    (hresolve : c.resolve is ref = .ok is') : Resolved d is' := by
  unfold Code.resolve at hresolve
  split at hresolve
  · cases hresolve
  · obtain ⟨operand, -, hresolve⟩ := exists_of_bind_ok hresolve
    cases hresolve
    exact h.setOperand href operand

/-- The functions of a table, each with the declaration it was resolved
from. -/
theorem resolveStart_ok {d : Draft} (h : d.Sound) {decl : Declaration}
    (hdecl : decl ∈ d.functions) {f : Function}
    (hf : d.resolveStart decl = .ok f) :
    f.name = decl.name ∧ f.params = decl.params ∧ f.locals = decl.locals
      ∧ (f.entry < 0x8000000000000000 ∨ f.entry ≤ d.code.position) := by
  unfold Draft.resolveStart at hf
  split at hf
  · next n hstart =>
    cases hf
    exact ⟨rfl, rfl, rfl, h.starts decl hdecl n hstart⟩
  · next label _ =>
    split at hf
    · next entry hlabel =>
      cases hf
      exact ⟨rfl, rfl, rfl, .inr (h.label_le hlabel)⟩
    · cases hf

section MapM

variable {ε α β γ : Type} {f : α → Except ε β} {xs : List α} {ys : List β}

/-- What a successful map returns, it returned for some element. -/
theorem mem_of_mapM_ok (h : xs.mapM f = .ok ys) :
    ∀ y ∈ ys, ∃ x ∈ xs, f x = .ok y := by
  induction xs generalizing ys with
  | nil =>
      cases h
      exact fun y hy => absurd hy List.not_mem_nil
  | cons x xs ih =>
      rw [List.mapM_cons] at h
      obtain ⟨y, hy, h⟩ := exists_of_bind_ok h
      obtain ⟨ys', hys, h⟩ := exists_of_bind_ok h
      cases h
      intro z hz
      rcases List.mem_cons.mp hz with rfl | hz
      · exact ⟨x, List.mem_cons_self, hy⟩
      · obtain ⟨x', hx', hfx'⟩ := ih hys z hz
        exact ⟨x', List.mem_cons_of_mem x hx', hfx'⟩

/-- What every result has in common with its element, the lists of them
have. -/
theorem map_eq_of_mapM_ok (g : α → γ) (g' : β → γ)
    (hg : ∀ x ∈ xs, ∀ y, f x = .ok y → g' y = g x) (h : xs.mapM f = .ok ys) :
    ys.map g' = xs.map g := by
  induction xs generalizing ys with
  | nil =>
      cases h
      rfl
  | cons x xs ih =>
      rw [List.mapM_cons] at h
      obtain ⟨y, hy, h⟩ := exists_of_bind_ok h
      obtain ⟨ys', hys, h⟩ := exists_of_bind_ok h
      cases h
      rw [List.map_cons, List.map_cons, hg x List.mem_cons_self y hy,
        ih (fun x' hx' => hg x' (List.mem_cons_of_mem x hx')) hys]

end MapM

/-- Settling all calls leaves the opcodes as they were and the
instructions tidy. -/
theorem Resolved.calls {d : Draft} (h : d.Sound) {is : Array Instruction}
    (hcalls : d.calls.foldlM d.resolveCall d.code.instructions = .ok is) :
    Resolved d is := by
  rw [← Array.foldlM_toList] at hcalls
  refine foldlM_invariant (Resolved d) ?_ ⟨rfl, h.tidy⟩ hcalls
  intro is is' ref href hresolved hresolve
  exact hresolved.resolveCall (h.calls ref (Array.mem_toList_iff.mp href))
    hresolve

/-- So does settling the jumps behind them. -/
theorem Resolved.finish {d : Draft} (h : d.Sound) {is code : Array Instruction}
    (his : Resolved d is)
    (hcode : { d.code with instructions := is }.finish = .ok code) :
    Resolved d code := by
  unfold Code.finish at hcode
  rw [← Array.foldlM_toList] at hcode
  refine foldlM_invariant (Resolved d) ?_ his hcode
  intro is is' ref href hresolved hresolve
  exact hresolved.resolve (h.jumps ref (Array.mem_toList_iff.mp href)) hresolve

/-- A program that was built from a sound draft can be listed, as far as its
binary numbers can. -/
theorem Draft.Sound.build {d : Draft} (h : d.Sound) {p : Program}
    (hp : d.build = .ok p)
    (hfloats : ∀ x, .float x ∈ p.constants → Statement.ReadsBack x) :
    Listable p := by
  -- building that succeeds has settled every kind of reference
  unfold Draft.build at hp
  obtain ⟨is, hcalls, hp⟩ := exists_of_bind_ok hp
  obtain ⟨functions, hfunctions, hp⟩ := exists_of_bind_ok hp
  obtain ⟨entry, -, hp⟩ := exists_of_bind_ok hp
  obtain ⟨code, hcode, hp⟩ := exists_of_bind_ok hp
  have hresolved := Resolved.finish h (Resolved.calls h hcalls) hcode
  rw [Array.mapM_eq_mapM_toList] at hfunctions
  obtain ⟨fs, hfs, rfl⟩ := exists_of_map_ok hfunctions
  obtain ⟨hconstants, hpcode, hpfunctions⟩ : p.constants = d.constants
      ∧ p.code = code
      ∧ p.functions = fs.toArray := by
    split at hp
    · next hnew =>
      cases hp
      obtain ⟨hconstants, hcode, hfunctions, -⟩ := Program.parts_of_new hnew
      exact ⟨hconstants, hcode, hfunctions⟩
    · cases hp
  -- settling references changes operands only, so no instruction is lost
  have hlength : p.length = d.code.position := by
    have hsize := congrArg Array.size hresolved.opcodes
    rw [Array.size_map, Array.size_map] at hsize
    rw [Program.length, hpcode, hsize]
    rfl
  have hfrom : ∀ f ∈ p.functions, ∃ decl ∈ d.functions,
      d.resolveStart decl = .ok f := by
    intro f hf
    rw [hpfunctions, List.mem_toArray] at hf
    obtain ⟨decl, hmem, hok⟩ := mem_of_mapM_ok hfs f hf
    exact ⟨decl, Array.mem_toList_iff.mp hmem, hok⟩
  refine ⟨fun f hf => ?_, ?_, fun f hf => ?_, fun f hf hpast => ?_,
    fun v hv => ?_, fun i hi => ?_⟩
  · obtain ⟨decl, hmem, hok⟩ := hfrom f hf
    rw [(resolveStart_ok h hmem hok).1]
    exact h.names decl hmem
  · have hnames := map_eq_of_mapM_ok (·.name) (·.name) (fun decl hmem f hok =>
      (resolveStart_ok h (Array.mem_toList_iff.mp hmem) hok).1) hfs
    rw [hpfunctions, hnames]
    exact h.indexed.nodup
  · obtain ⟨decl, hmem, hok⟩ := hfrom f hf
    obtain ⟨-, hparams, hlocals, -⟩ := resolveStart_ok h hmem hok
    refine ⟨?_, ?_⟩
    · rw [hparams]
      exact (h.counts decl hmem).1
    · rw [hlocals]
      exact (h.counts decl hmem).2
  · obtain ⟨decl, hmem, hok⟩ := hfrom f hf
    obtain ⟨-, -, -, hentry⟩ := resolveStart_ok h hmem hok
    rw [← hlength] at hentry
    exact hentry.resolve_right (Nat.not_le.mpr hpast)
  · have hspelt : Statement.Spelt v := h.constants v (hconstants ▸ hv)
    cases v with
    | float x => exact hfloats x hv
    | decimal d => exact hspelt
    | _ => trivial
  · rw [hpcode] at hi
    exact hresolved.tidy i hi

/-- A text that is assembled gives a program that can be listed, as far as its
binary numbers can. -/
theorem assembled_listable {text : String} {p : Program}
    (h : assemble text = .ok p)
    (hfloats : ∀ x, .float x ∈ p.constants → Statement.ReadsBack x) :
    Listable p := by
  unfold assemble at h
  obtain ⟨r, hr, hfinish⟩ := exists_of_bind_ok h
  unfold Reading.finish at hfinish
  split at hfinish
  · next hbuild =>
    cases hfinish
    exact (Reading.readLines_sound hr).build hbuild hfloats
  · cases hfinish

end Assembly

end StackMachine
