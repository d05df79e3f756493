/-
What one step does to the call stack, and what it can be blamed for.

A step leaves the frames alone, moves the running one along the flow of its
code, puts a frame for a called function on top of it, or takes it away
(`Move`). No step touches a frame below the running one. The faults of an
instruction are its own or the host's: each of the malformed ones names the
index that is out of range (`Blame`), and every other lies in what is being
computed.

Both are read off the definition once, one lemma for each kind of
instruction, and `step_ensures` is the only statement that what follows
needs.
-/
import StackMachine.Proofs.Machine.Hosts
import StackMachine.Verification.Reach

namespace StackMachine

-- ============================================================ the flow

/-- A frame that executes the instruction at `a` may next stand at `b`.
A halt counts as well: the frame stands behind it when the machine is
set going again. -/
inductive Flow (p : Program) (a : Nat) : Nat → Prop
  | on {i : Instruction} {b : Nat} (hi : p.code[a]? = some i)
    (hb : b ∈ Verification.successors a i) : Flow p a b
  | resumed {i : Instruction} (hi : p.code[a]? = some i)
      (hhalt : i.opcode = .halt) :
    Flow p a (a + 1)

/-- All but jumps, returns and halts may go on to the next instruction. -/
theorem Verification.next_mem_successors {i : Instruction} {op : Opcode}
    (hop : i.opcode = op) (hne : op ≠ .jump ∧ op ≠ .ret ∧ op ≠ .halt)
    (a : Nat) :
    a + 1 ∈ Verification.successors a i := by
  obtain ⟨hjump, hret, hhalt⟩ := hne
  rw [Verification.successors, hop]
  cases op with
  | jump => exact absurd rfl hjump
  | ret => exact absurd rfl hret
  | halt => exact absurd rfl hhalt
  | _ => exact List.mem_cons_self

/-- What one step does to the frames. -/
inductive Move (p : Program) : Array Frame → Array Frame → Prop
  | stay (frames : Array Frame) : Move p frames frames
  /-- The running frame goes on; an instruction may change its slots,
  not their number. -/
  | shift {rest : Array Frame} {f : Frame} {ip : Nat} {locals : Array Value}
    (hflow : Flow p f.ip ip) (hsize : locals.size = f.locals.size) :
    Move p (rest.push f) (rest.push { f with ip, locals })
  | call {rest : Array Frame} {f : Frame} {i : Instruction} {n : Nat}
    {g : Function} {args : Array Value} (hi : p.code[f.ip]? = some i)
    (hcall : i.opcode = .call) (hg : p.functions[n]? = some g)
    (hargs : args.size = g.params) :
    Move p (rest.push f)
      ((rest.push { f with ip := f.ip + 1 }).push
        (.entered n g args (some (f.ip + 1))))
  | ret {rest : Array Frame} {f : Frame} : Move p (rest.push f) rest

/-- What an instruction that the running frame executes may fault with. -/
inductive Blame (raises : Fault → Prop) (p : Program) (f : Frame)
    (i : Instruction) : Fault → Prop
  | host {g : Fault} (h : raises g) : Blame raises p f i g
  | ordinary {g : Fault} (h : g.cause.isOrdinary) : Blame raises p f i g
  | opcode (h : i.opcode.isReserved) :
    Blame raises p f i ⟨f.ip, .unknownOpcode i.opcode.code⟩
  | constant (hop : i.opcode = .pushConst)
    (h : ∀ n, i.index? = some n → p.constants.size ≤ n) :
    Blame raises p f i
      ⟨f.ip, .invalidConstant i.operand.toInt64 p.constants.size⟩
  | function (hop : i.opcode = .call)
      (h : ∀ n, i.index? = some n → p.functions.size ≤ n) :
    Blame raises p f i
      ⟨f.ip, .invalidFunction i.operand.toInt64 p.functions.size⟩
  | target (hop : i.opcode.isJump) (h : i.index? = none) :
    Blame raises p f i ⟨f.ip, .corruptedCounter i.operand.toInt64 p.length⟩
  | slot {index : Int64} (hop : i.opcode.operandKind = .slot)
    (h : ∀ n, i.index? = some n → f.locals.size ≤ n) :
    Blame raises p f i ⟨f.ip, .invalidLocal index f.locals.size⟩

namespace Machine

/-- One step from `m` led to `m'`. -/
structure Turned (m m' : Machine) : Prop where
  program : m'.program = m.program
  confined : ∀ raises, m.Confined raises → m'.Confined raises
  move : Move m.program m.calls.items m'.calls.items

/-- The machine stands at an instruction that can be blamed for `g`, or
outside the code. -/
inductive Blamed (raises : Fault → Prop) (m : Machine) (g : Fault) : Prop
  | counter {rest : Array Frame} {f : Frame}
    (htop : m.calls.items = rest.push f) (hip : m.program.length < f.ip)
    (hg : g.cause = .corruptedCounter (Int64.ofNat f.ip) m.program.length) :
    Blamed raises m g
  | instruction {rest : Array Frame} {f : Frame} {i : Instruction}
    (htop : m.calls.items = rest.push f) (hi : m.program.code[f.ip]? = some i)
    (h : Blame raises m.program f i g) : Blamed raises m g

variable {m m₁ m₂ : Machine}

/-- What goes on beside the call stack is a step that moves no frame. -/
theorem Beside.turned (h : m.Beside m₁) : m.Turned m₁ := by
  refine ⟨h.program, h.confined, ?_⟩
  rw [h.calls]
  exact Move.stay _

/-- What goes on beside the call stack before a step changes nothing about
it. -/
theorem Turned.after (h : m.Beside m₁) (ht : m₁.Turned m₂) : m.Turned m₂ := by
  refine ⟨ht.program.trans h.program,
    fun r hr => ht.confined r (h.confined r hr), ?_⟩
  rw [← h.program, ← h.calls]
  exact ht.move

theorem Turned.before (ht : m.Turned m₁) (h : m₁.Beside m₂) : m.Turned m₂ := by
  refine ⟨h.program.trans ht.program,
    fun r hr => h.confined r (ht.confined r hr), ?_⟩
  rw [h.calls]
  exact ht.move

/-- Blame does not change by what went on beside the call stack before. -/
theorem Blamed.after {raises : Fault → Prop} {g : Fault} (h : m.Beside m₁)
    (hg : m₁.Blamed raises g) : m.Blamed raises g := by
  cases hg with
  | counter htop hip hg =>
      rw [h.calls] at htop
      rw [h.program] at hip hg
      exact .counter htop hip hg
  | instruction htop hi hblame =>
      rw [h.calls] at htop
      rw [h.program] at hi hblame
      exact .instruction htop hi hblame

end Machine

namespace Action

variable {raises : Fault → Prop} {reenter : Reentry} {m : Machine} {site : Nat}
  {f : Frame} {rest : Array Frame} {i : Instruction}

-- ======================================================== instructions

/-- How an executed instruction leaves the machine for its transfer. -/
inductive Executed (m : Machine) (f : Frame)
    (i : Instruction) : Transfer → Machine → Prop
  | next {m' : Machine} (hflow : f.ip + 1 ∈ Verification.successors f.ip i)
      (h : m.Beside m') :
    Executed m f i .next m'
  | store {m' : Machine} {locals : Array Value} (hop : i.opcode = .storeLocal)
    (h : m.Beside m') (hsize : locals.size = f.locals.size) :
    Executed m f i .next
      { m' with calls := m'.calls.replaceTop { f with locals } }
  | jump {m' : Machine} (hop : i.opcode.isJump) (h : m.Beside m') :
    Executed m f i (.jump i.operand) m'
  | call {m' : Machine} {n : Nat} {g : Function} {args : Array Value}
    (hop : i.opcode = .call) (h : m.Beside m')
    (hg : m.program.functions[n]? = some g) (hargs : args.size = g.params) :
    Executed m f i (.call (.entered n g args (some (f.ip + 1)))) m'
  | ret {m' : Machine} (hop : i.opcode = .ret) (h : m.Beside m') :
    Executed m f i .ret m'
  | halt {m' : Machine} (hop : i.opcode = .halt) (h : m.Beside m') :
    Executed m f i .halt m'

/-- An instruction that faults does so beside the call stack. -/
def Failed (raises : Fault → Prop) (m : Machine) (f : Frame) (i : Instruction)
    (g : Fault) (m' : Machine) : Prop :=
  m.Beside m' ∧ Blame raises m.program f i g

section Operands

-- Instructions are sequences of these; each goes on from a machine beside the
-- one it started from.
variable {m₁ : Machine} (hb : m.Beside m₁)

include hb

/-- Whatever instruction takes a value, it can be blamed for finding none. -/
theorem popOperand_failed :
    (popOperand site).Ensures m₁ (fun _ m' => m.Beside m')
      (Failed raises m f i) :=
  popOperand_ensures (fun _ _ => hb.trans (Machine.Beside.of_eq rfl rfl rfl))
    fun _ => ⟨hb, .ordinary rfl⟩

/-- The same for several values, which come as many as were asked for. -/
theorem popOperands_failed (n : Nat) :
    (popOperands site n).Ensures m₁
      (fun args m' => m.Beside m' ∧ args.size = n)
      (Failed raises m f i) := by
  refine popOperands_ensures n
    (fun hn => ⟨hb.trans (Machine.Beside.of_eq rfl rfl rfl), ?_⟩)
    ⟨hb, .ordinary rfl⟩
  rw [Array.size_extract]
  omega

/-- Whatever instruction pushes a value, it can be blamed for finding no
room. -/
theorem pushOperand_failed (v : Value) :
    (pushOperand site v).Ensures m₁ (fun _ m' => m.Beside m')
      (Failed raises m f i) :=
  pushOperand_ensures v (hb.trans (Machine.Beside.of_eq rfl rfl rfl))
    fun _ => ⟨hb, .ordinary rfl⟩

/-- Whatever instruction computes with values, it can be blamed for what they
are refused for. -/
theorem compute_failed {α : Type} (result : Except ValueError α) :
    (compute site result).Ensures m₁ (fun _ m' => m.Beside m')
      (Failed raises m f i) :=
  compute_ensures (fun _ => hb) fun _ => ⟨hb, .ordinary rfl⟩

end Operands

/-- A constant is pushed, or its index is out of range. -/
theorem pushConstant_ensures (hop : i.opcode = .pushConst) :
    (pushConstant f.ip i).Ensures m (Executed m f i)
      (Failed raises m f i) := by
  apply Ensures.get
  cases hv : i.index?.bind (m.program.constants[·]?) with
  | none =>
      refine ⟨Machine.Beside.refl m, .constant hop fun n hn => ?_⟩
      rw [hn] at hv
      exact Array.getElem?_eq_none_iff.mp hv
  | some v =>
      refine Ensures.bind _ (pushOperand_failed (Machine.Beside.refl m) v) ?_
      intro _ m' hb
      exact .next (Verification.next_mem_successors hop (by decide) f.ip) hb

/-- Two operands are taken, and what is computed from them is put in their
place. -/
theorem binary_ensures {α : Type}
    {result : Value → Value → Except ValueError α} {wrap : α → Value}
    (hflow : f.ip + 1 ∈ Verification.successors f.ip i) :
    (do
      let b ← popOperand site
      let a ← popOperand site
      let x ← compute site (result a b)
      pushOperand site (wrap x)
      return Transfer.next).Ensures m (Executed m f i)
        (Failed raises m f i) := by
  refine Ensures.bind _ (popOperand_failed (Machine.Beside.refl m))
    fun b m₁ h₁ => ?_
  refine Ensures.bind _ (popOperand_failed h₁) fun a m₂ h₂ => ?_
  refine Ensures.bind _ (compute_failed h₂ _) fun x m₃ h₃ => ?_
  refine Ensures.bind _ (pushOperand_failed h₃ _) fun _ m₄ h₄ => ?_
  exact .next hflow h₄

/-- The slot that an instruction names is in range, or the instruction is to
blame. -/
theorem slot_ensures (hop : i.opcode.operandKind = .slot)
    (htop : m.calls.items = rest.push f) :
    (slot f.ip i).Ensures m (fun n m' => m' = m ∧ i.index? = some n)
      (Failed raises m f i) := by
  unfold slot
  cases hn : i.index? with
  | some n => exact ⟨rfl, rfl⟩
  | none =>
      have hcount : (m.calls.top?.map (·.locals.size)).getD 0
          = f.locals.size := by
        rw [Stack.top?_of_push htop]
        rfl
      refine Ensures.get ?_
      rw [hcount]
      refine ⟨Machine.Beside.refl m, .slot hop fun n hn' => ?_⟩
      rw [hn] at hn'
      cases hn'

/-- A slot of the running frame is loaded, or its index is out of range. -/
theorem loadLocal_ensures (hop : i.opcode = .loadLocal)
    (htop : m.calls.items = rest.push f) :
    (loadLocal f.ip i).Ensures m (Executed m f i) (Failed raises m f i) := by
  have hkind : i.opcode.operandKind = .slot := by
    rw [hop]
    rfl
  refine Ensures.bind _ (slot_ensures hkind htop) ?_
  rintro n m ⟨rfl, hn⟩
  refine Ensures.bind (fun g m' => g = f ∧ m' = m)
    (.ok (currentFrame_eq htop) ⟨rfl, rfl⟩) ?_
  rintro f m ⟨rfl, rfl⟩
  refine Ensures.bind (fun _ m' => m.Beside m') ?_ fun v m₁ h₁ => ?_
  · unfold Ensures onFrame Frame.getLocal
    cases hv : f.locals[n]? with
    | some v => exact Machine.Beside.refl m
    | none =>
        refine ⟨Machine.Beside.refl m, .slot hkind fun n' hn' => ?_⟩
        obtain rfl : n = n' := Option.some.inj (hn.symm.trans hn')
        exact Array.getElem?_eq_none_iff.mp hv
  · refine Ensures.bind _ (pushOperand_failed h₁ v) fun _ m₂ h₂ => ?_
    exact .next (Verification.next_mem_successors hop (by decide) f.ip) h₂

/-- A slot of the running frame is replaced, which leaves as many as there
were, or its index is out of range. -/
theorem storeLocal_ensures (hop : i.opcode = .storeLocal)
    (htop : m.calls.items = rest.push f) :
    (storeLocal f.ip i).Ensures m (Executed m f i) (Failed raises m f i) := by
  have hkind : i.opcode.operandKind = .slot := by
    rw [hop]
    rfl
  refine Ensures.bind _ (slot_ensures hkind htop) ?_
  rintro n m ⟨rfl, hn⟩
  refine Ensures.bind _ (popOperand_failed (Machine.Beside.refl m))
    fun v m₁ h₁ => ?_
  have htop₁ := h₁.frames htop
  refine Ensures.bind (fun g m' => g = f ∧ m' = m₁)
    (.ok (currentFrame_eq htop₁) ⟨rfl, rfl⟩) ?_
  rintro f m₁ ⟨rfl, rfl⟩
  refine Ensures.bind
    (fun g m' => m' = m₁ ∧ ∃ locals, locals.size = f.locals.size
      ∧ g = { f with locals }) ?_ ?_
  · -- the index is looked at only after the value was taken
    unfold Ensures onFrame Frame.setLocal
    by_cases hlt : n < f.locals.size
    · simp only [hlt, if_true]
      exact ⟨trivial, _, Array.size_setIfInBounds, rfl⟩
    · simp only [hlt, if_false]
      refine ⟨h₁, .slot hkind fun n' hn' => ?_⟩
      obtain rfl : n = n' := Option.some.inj (hn.symm.trans hn')
      omega
  · rintro _ m₂ ⟨rfl, locals, hsize, rfl⟩
    exact .store hop h₁ hsize

/-- A conditional jump goes to its target or to the next instruction. -/
theorem jumpIfFalse_ensures (hop : i.opcode = .jumpIfFalse) :
    (jumpIfFalse f.ip i.operand).Ensures m (Executed m f i)
      (Failed raises m f i) := by
  have hflow := Verification.next_mem_successors hop (by decide) f.ip
  refine Ensures.bind _ (popOperand_failed (Machine.Beside.refl m))
    fun v m₁ h₁ => ?_
  split
  · exact .next hflow h₁
  · refine .jump ?_ h₁
    rw [hop]
    rfl
  · exact ⟨h₁, .ordinary rfl⟩

/-- A call has its function and as many arguments as that takes, or its index
is out of range. -/
theorem call_ensures (hop : i.opcode = .call) :
    (call f.ip i).Ensures m (Executed m f i) (Failed raises m f i) := by
  apply Ensures.get
  cases hn : i.index? with
  | none =>
      refine ⟨Machine.Beside.refl m, .function hop fun n hn' => ?_⟩
      rw [hn] at hn'
      cases hn'
  | some n =>
      simp only [Option.bind_some]
      cases hg : m.program.functions[n]? with
      | none =>
          refine ⟨Machine.Beside.refl m, .function hop fun n' hn' => ?_⟩
          obtain rfl : n = n' := Option.some.inj (hn.symm.trans hn')
          exact Array.getElem?_eq_none_iff.mp hg
      | some g =>
          refine Ensures.bind
            _ (popOperands_failed (Machine.Beside.refl m) g.params) ?_
          -- with so many arguments the new frame has a slot for each
          rintro args m₁ ⟨h₁, hargs⟩
          refine Ensures.bind
            (fun frame m' =>
              frame = .entered n g args (some (f.ip + 1)) ∧ m' = m₁)
            (.ok (onFrame_entering hargs _ _ _ m₁) ⟨rfl, rfl⟩) ?_
          rintro _ _ ⟨rfl, rfl⟩
          exact .call hop h₁ hg hargs

/-- A system call goes on beside the call stack, and its faults lie in what is
computed or are the host's. -/
def StaysBeside (raises : Fault → Prop) (m : Machine)
    (call : Action Unit) : Prop :=
  call.Ensures m (fun _ m' => m.Beside m')
    (fun g m' => m.Beside m' ∧ (g.cause.isOrdinary ∨ raises g))

/-- Every instruction leaves the machine as its transfer expects it, or faults
beside the call stack and can be blamed. -/
theorem execute_ensures (hsyscall : i.opcode = .syscall →
      StaysBeside raises m (syscall reenter f.ip i.operand))
    (htop : m.calls.items = rest.push f) :
    (execute reenter f.ip i).Ensures m (Executed m f i)
      (Failed raises m f i) := by
  have hself := Machine.Beside.refl m
  unfold execute
  cases hop : i.opcode with
  -- what is only computed goes on behind the instruction
  | nop =>
      exact .next (Verification.next_mem_successors hop (by decide) f.ip) hself
  | pushConst => exact pushConstant_ensures hop
  | add | sub | mul | div =>
      exact binary_ensures
        (Verification.next_mem_successors hop (by decide) f.ip)
  | cmpLt =>
      exact binary_ensures
        (Verification.next_mem_successors hop (by decide) f.ip)
  | loadLocal => exact loadLocal_ensures hop htop
  | storeLocal => exact storeLocal_ensures hop htop
  | jump =>
      refine .jump ?_ hself
      rw [hop]
      rfl
  | jumpIfFalse => exact jumpIfFalse_ensures hop
  | call => exact call_ensures hop
  | ret => exact .ret hop hself
  | syscall =>
      refine Ensures.bind
        _ (Ensures.mono (hsyscall hop) (fun _ _ hb => hb) ?_) ?_
      · rintro g m' ⟨hb, hordinary | hraised⟩
        · exact ⟨hb, .ordinary hordinary⟩
        · exact ⟨hb, .host hraised⟩
      · intro _ m' hb
        exact .next (Verification.next_mem_successors hop (by decide) f.ip) hb
  | halt => exact .halt hop hself
  | cmpEq | cmpNe | cmpLe | cmpGt | cmpGe | not | and | or =>
      refine ⟨hself, ?_⟩
      rw [← hop]
      -- reserved opcodes are refused by themselves
      refine .opcode ?_
      rw [hop]
      rfl

-- ============================================================ transfers

section CarryOut

variable (htop : m.calls.items = rest.push f)

include htop

/-- A frame that was neither moved nor covered goes on behind its
instruction. -/
theorem carryOut_next (hip : f.ip = site) {depth : Nat}
    (hdepth : m.calls.size = depth) :
    carryOut site depth .next m
      = .ok ()
        { m with calls := m.calls.replaceTop { f with ip := site + 1 } } := by
  show (if m.calls.size = depth then
    currentFrame site >>= fun g =>
      if g.ip = site then setFrame { g with ip := site + 1 } else pure ()
    else pure () : Action Unit) m = _
  rw [if_pos hdepth]
  simp only [Bind.bind, EStateM.bind]
  rw [currentFrame_eq htop]
  simp only [hip, if_true]
  rfl

/-- After a slot was written, the frame goes on as it is then. -/
theorem carryOut_stored {m₁ : Machine} (hb : m.Beside m₁)
    (locals : Array Value) :
    carryOut f.ip m.calls.size .next
        { m₁ with calls := m₁.calls.replaceTop { f with locals } }
      = .ok () { m₁ with
        calls := (m₁.calls.replaceTop { f with locals }).replaceTop
          { f with locals, ip := f.ip + 1 } } := by
  have hdepth : (m₁.calls.replaceTop { f with locals }).size = m.calls.size :=
    (size_replaceTop (hb.frames htop) _).trans hb.size
  exact carryOut_next (f := { f with locals })
    (replaceTop_items (hb.frames htop) _) rfl hdepth

/-- A jump to a position in the code or behind it moves the running frame
there. -/
theorem carryOut_jump {target : Int32} (hpos : 0 ≤ target.toInt)
    (depth : Nat) :
    carryOut site depth (.jump target) m
      = .ok () { m with
        calls := m.calls.replaceTop { f with ip := target.toInt.toNat } } := by
  show (if 0 ≤ target.toInt then moveTo site target.toInt.toNat
    else _ : Action Unit) m = _
  rw [if_pos hpos]
  exact moveTo_eq htop _

/-- A call moves the caller, puts the new frame on top of it, and reports
that. -/
theorem carryOut_call_eq_ok (hroom : m.calls.size < m.calls.limit)
    (depth : Nat) (callee : Frame) :
    carryOut site depth (.call callee) m = .ok ()
      (let m' := { m with calls := { m.calls with
          items := (rest.push { f with ip := site + 1 }).push callee } }
       match m.program.functions[callee.function]? with
       | some g => m'.observe (.called site g (m.calls.size + 1))
       | none => m') := by
  have hsize : (rest.push { f with ip := site + 1 }).size = m.calls.size := by
    rw [Stack.size, htop, Array.size_push, Array.size_push]
  have hpush : pushCall site callee
      { m with calls := m.calls.replaceTop { f with ip := site + 1 } }
      = .ok () { m with calls := { m.calls with
          items := (rest.push { f with ip := site + 1 }).push callee } } := by
    have hlt : (m.calls.replaceTop { f with ip := site + 1 }).items.size
        < m.calls.limit := by
      rw [replaceTop_items htop]
      omega
    unfold pushCall onCalls CallStack.push Stack.push
    simp only [Stack.replaceTop, htop, Array.pop_push] at hlt ⊢
    simp only [hlt, if_true]
  show (moveTo site (site + 1) >>= fun _ => pushCall site callee >>= _ :
    Action Unit) m = _
  simp only [Bind.bind, EStateM.bind]
  rw [moveTo_eq htop]
  simp only [hpush]
  -- the depth that is reported counts the new frame
  have hcount : ((rest.push { f with ip := site + 1 }).push callee).size
      = m.calls.size + 1 := by
    rw [Array.size_push, hsize]
  show (match m.program.functions[callee.function]? with
    | some g =>
      observe
        (.called site g
          ((rest.push { f with ip := site + 1 }).push callee).size)
    | none => pure () : Action Unit) _ = _
  rw [hcount]
  cases m.program.functions[callee.function]? with
  | none => rfl
  | some g => rfl

/-- A call that finds the call stack full has moved the caller. -/
theorem carryOut_call_eq_error (hfull : ¬ m.calls.size < m.calls.limit)
    (depth : Nat) (callee : Frame) :
    carryOut site depth (.call callee) m
      = .error (.fault ⟨site, .callDepthExceeded m.calls.limit⟩)
          { m with
            calls := m.calls.replaceTop { f with ip := site + 1 } } := by
  have hpush : pushCall site callee
      { m with calls := m.calls.replaceTop { f with ip := site + 1 } }
      = .error (.fault ⟨site, .callDepthExceeded m.calls.limit⟩)
          { m with
            calls := m.calls.replaceTop { f with ip := site + 1 } } := by
    have hfull' : ¬ (m.calls.replaceTop { f with ip := site + 1 }).items.size
        < (m.calls.replaceTop { f with ip := site + 1 }).limit := by
      rw [replaceTop_items htop, Array.size_push]
      rw [Stack.size, htop, Array.size_push] at hfull
      exact hfull
    unfold pushCall onCalls CallStack.push Stack.push
    simp only [hfull', if_false]
    rfl
  show (moveTo site (site + 1) >>= fun _ => pushCall site callee >>= _ :
    Action Unit) m = _
  simp only [Bind.bind, EStateM.bind]
  rw [moveTo_eq htop]
  simp only [hpush]

/-- A call moves the caller, and then puts the new frame on top of it or finds
the stack full. -/
theorem carryOut_call (depth : Nat) (callee : Frame)
    {answer : Unit → Machine → Prop} {fault : Fault → Machine → Prop}
    (hroom : ∀ m', m'.program = m.program → m'.handlers = m.handlers →
      m'.operands = m.operands →
      m'.calls.items = (rest.push { f with ip := site + 1 }).push callee →
      answer () m')
    (hfull : ∀ m', m'.program = m.program → m'.handlers = m.handlers →
      m'.calls.items = rest.push { f with ip := site + 1 } →
      m.calls.limit ≤ m.calls.size →
      fault ⟨site, .callDepthExceeded m.calls.limit⟩ m') :
    (carryOut site depth (.call callee)).Ensures m answer fault := by
  unfold Ensures
  by_cases hlt : m.calls.size < m.calls.limit
  · rw [carryOut_call_eq_ok htop hlt]
    cases m.program.functions[callee.function]? with
    | none => exact hroom _ rfl rfl rfl rfl
    | some g => exact hroom _ rfl rfl rfl rfl
  · rw [carryOut_call_eq_error htop hlt]
    exact hfull _ rfl rfl (replaceTop_items htop _) (Nat.not_lt.mp hlt)

/-- A return takes the running frame off and reports how many are left. -/
theorem carryOut_ret (depth : Nat) :
    carryOut site depth .ret m = .ok ()
      (Machine.observe { m with calls := { m.calls with items := rest } }
        (.returned site rest.size)) := by
  have hpop : popCall site m
      = .ok f { m with calls := { m.calls with items := rest } } := by
    unfold popCall onCalls CallStack.pop Stack.pop
    rw [htop, Array.back?_push, Array.pop_push]
  show (popCall site >>= _ : Action Unit) m = _
  simp only [Bind.bind, EStateM.bind]
  rw [hpop]
  rfl

/-- A halt moves the running frame behind it and requests the halt. -/
theorem carryOut_halt (depth : Nat) :
    carryOut site depth .halt m = .ok ()
      (Machine.requestHalt
        { m with calls := m.calls.replaceTop { f with ip := site + 1 } }) := by
  show (moveTo site (site + 1) >>= _ : Action Unit) m = _
  simp only [Bind.bind, EStateM.bind]
  rw [moveTo_eq htop]
  rfl

end CarryOut

/-- The target of a jump is one of the places it may lead to. -/
theorem target_mem_successors (hop : i.opcode.isJump) {target : Nat}
    (hindex : i.index? = some target) :
    target ∈ Verification.successors site i := by
  unfold Verification.successors
  cases hi : i.opcode with
  | jump =>
      rw [hindex]
      exact List.mem_singleton_self target
  | jumpIfFalse =>
      rw [hindex]
      exact List.mem_cons_of_mem _ (List.mem_singleton_self target)
  | _ =>
      rw [hi] at hop
      cases hop

/-- A machine with other slots and another position in its running frame has
taken a step. -/
theorem turned_shift {m₁ : Machine} {ip : Nat} {locals : Array Value}
    (htop : m.calls.items = rest.push f) (hflow : Flow m.program f.ip ip)
    (hsize : locals.size = f.locals.size) (hprogram : m₁.program = m.program)
    (hcalls : m₁.calls.items = rest.push { f with ip, locals })
    (hconfined : ∀ raises, m.Confined raises → m₁.Confined raises) :
    m.Turned m₁ := by
  refine ⟨hprogram, hconfined, ?_⟩
  rw [hcalls, htop]
  exact Move.shift hflow hsize

/-- A frame that returns is a move of the frames. -/
theorem turned_ret {m₁ : Machine} (htop : m.calls.items = rest.push f)
    (hb : m.Beside m₁) (e : Event) :
    m.Turned
      (Machine.observe { m₁ with calls := { m₁.calls with items := rest } }
        e) := by
  have hpopped :
      m.Turned { m₁ with calls := { m₁.calls with items := rest } } := by
    refine ⟨hb.program, hb.confined, ?_⟩
    rw [htop]
    exact .ret
  exact hpopped.before (Machine.beside_observe _ e)

/-- Carrying out the transfer of an executed instruction is the rest of a
step. -/
theorem carryOut_ensures (raises : Fault → Prop) {t : Transfer} {m₁ : Machine}
    (hi : m.program.code[f.ip]? = some i) (htop : m.calls.items = rest.push f)
    (h : Executed m f i t m₁) :
    (carryOut f.ip m.calls.size t).Ensures m₁ (fun _ m' => m.Turned m')
      (fun g m' => m.Turned m' ∧ Blame raises m.program f i g) := by
  cases h with
  | next hflow hb =>
      refine .ok (carryOut_next (hb.frames htop) rfl hb.size) ?_
      refine turned_shift htop (.on hi hflow) rfl hb.program ?_ hb.confined
      exact replaceTop_items (hb.frames htop) _
  | @store m₁ locals hop hb hsize =>
      -- the slot is written before the frame moves on, so the frame that
      -- moves is the changed one
      have htop₁ := replaceTop_items (hb.frames htop) { f with locals }
      have hflow := Verification.next_mem_successors hop (by decide) f.ip
      refine .ok (carryOut_stored htop hb locals) ?_
      refine turned_shift htop (.on hi hflow) hsize hb.program ?_ hb.confined
      exact replaceTop_items htop₁ _
  | jump hop hb =>
      cases hindex : i.index? with
      | some target =>
          obtain ⟨hpos, rfl⟩ : 0 ≤ i.operand.toInt
            ∧ i.operand.toInt.toNat = target := by
            simpa [Instruction.index?] using hindex
          refine .ok (carryOut_jump (hb.frames htop) hpos _) ?_
          refine turned_shift htop (.on hi (target_mem_successors hop hindex))
            rfl hb.program ?_ hb.confined
          exact replaceTop_items (hb.frames htop) _
      | none =>
          -- an operand without an index is negative, and no target
          have hneg : ¬ 0 ≤ i.operand.toInt := by
            intro hpos
            rw [Instruction.index?, if_pos hpos] at hindex
            cases hindex
          show (if 0 ≤ i.operand.toInt then _
            else _ : Action Unit).Ensures _ _ _
          rw [if_neg hneg]
          refine Ensures.get ⟨hb.turned, ?_⟩
          rw [hb.program]
          exact .target hop hindex
  | call hop hb hg hargs =>
      refine carryOut_call (hb.frames htop) _ _ ?_ ?_
      · intro m' hprogram hhandlers _ hcalls
        refine ⟨hprogram.trans hb.program,
          fun r hr => (hb.confined r hr).of_handlers hhandlers, ?_⟩
        rw [hcalls, htop]
        exact .call hi hop hg hargs
      · -- the caller has moved behind the call, where the flow leads too
        intro m' hprogram hhandlers hcalls _
        have hflow := Verification.next_mem_successors hop (by decide) f.ip
        exact ⟨turned_shift htop (.on hi hflow) rfl
          (hprogram.trans hb.program) hcalls
          fun r hr => (hb.confined r hr).of_handlers hhandlers, .ordinary rfl⟩
  | ret hop hb =>
      exact .ok (carryOut_ret (hb.frames htop) _) (turned_ret htop hb _)
  | halt hop hb =>
      refine .ok (carryOut_halt (hb.frames htop) _) ?_
      refine turned_shift htop (.resumed hi hop) rfl hb.program ?_ hb.confined
      exact replaceTop_items (hb.frames htop) _

-- ================================================================ steps

/-- The execution and the transfer of an instruction are one step, or end in a
fault that the instruction can be blamed for. -/
theorem dispatch_ensures (hsyscall : i.opcode = .syscall →
      StaysBeside raises m (syscall reenter f.ip i.operand))
    (hi : m.program.code[f.ip]? = some i)
    (htop : m.calls.items = rest.push f) :
    (dispatch reenter f.ip m.calls.size i).Ensures m (fun _ m' => m.Turned m')
      (fun g m' => m.Turned m' ∧ m.Blamed raises g) := by
  refine Ensures.bind
    _ ((execute_ensures hsyscall htop).mono (fun _ _ he => he) ?_) ?_
  · rintro g m' ⟨hb, hblame⟩
    exact ⟨hb.turned, .instruction htop hi hblame⟩
  · intro t m₁ he
    refine Ensures.bind
      _ ((carryOut_ensures raises hi htop he).mono (fun _ _ ht => ht) ?_) ?_
    · rintro g m' ⟨ht, hblame⟩
      exact ⟨ht, .instruction htop hi hblame⟩
    · intro _ m' ht
      exact ht

/-- The system call that the machine stands at, if it does, stays beside the
call stack. -/
def ServedBeside (raises : Fault → Prop) (reenter : Reentry)
    (m : Machine) : Prop :=
  ∀ (rest : Array Frame) (f : Frame) (i : Instruction),
    m.haltRequested = false →
    m.calls.items = rest.push f → m.program.code[f.ip]? = some i →
    i.opcode = .syscall →
    StaysBeside raises (m.observe (.instruction f.ip i m.operands.size))
      (syscall reenter f.ip i.operand)

/-- Confined hosts stay beside the call stack. -/
theorem servedBeside_of_confined (h : m.Confined raises) :
    ServedBeside raises reenter m := by
  intro rest f i _ _ _ _
  have hobserved :=
    (m.beside_observe (.instruction f.ip i m.operands.size)).confined raises h
  exact syscall_ensures fun _ hfound => hobserved.handler hfound

/-- One iteration makes a move, and what it faults with can be blamed on
where it stood. -/
theorem iterate_ensures (h : ServedBeside raises reenter m) :
    (iterate reenter).Ensures m (fun _ m' => m.Turned m')
      (fun g m' => m.Turned m' ∧ m.Blamed raises g) := by
  have hself : m.Turned m := (Machine.Beside.refl m).turned
  have hcases := iterate_iteration reenter m
  unfold Ensures
  generalize iterate reenter m = outcome at hcases ⊢
  cases hcases with
  | halting => exact hself
  | finished => exact hself
  | ranOff _ htop =>
      -- running off the end is a return
      have ht := turned_ret htop (Machine.Beside.refl m)
      exact Ensures.bind (fun _ m' => m.Turned m')
        (.ok (carryOut_ret htop _) (ht _))
        fun _ _ ht => ht
  | astray _ htop hip => exact ⟨hself, .counter htop hip rfl⟩
  | @fetched rest f i hhalt htop hi =>
      have hb := m.beside_observe (.instruction f.ip i m.operands.size)
      have hi' :
          (m.observe (.instruction f.ip i m.operands.size)).program.code[f.ip]?
          = some i := hi
      refine Ensures.mono
        (m := m.observe (.instruction f.ip i m.operands.size))
        (dispatch_ensures (h rest f i (eq_false_of_ne_true hhalt) htop hi)
          hi' htop)
        (fun _ _ ht => ht.after hb) ?_
      rintro g m' ⟨ht, hblamed⟩
      exact ⟨ht.after hb, hblamed.after hb⟩

/-- A machine that no halt holds back executes the instruction its running
frame stands at. -/
theorem iterate_fetched (hhalt : m.haltRequested = false)
    (hf : m.calls.top? = some f) (hi : m.program.code[f.ip]? = some i) :
    iterate reenter m = dispatch reenter f.ip m.calls.size i
      (m.observe (.instruction f.ip i m.operands.size)) := by
  have hend : f.ip ≠ m.program.length :=
    Nat.ne_of_lt (Array.getElem?_eq_some_iff.mp hi).1
  change (if m.haltRequested then _ else _ : Action Progress) m = _
  rw [hhalt, if_neg Bool.false_ne_true]
  simp only [hf, hend, if_false, hi]
  rfl

/-- What the dispatch of the instruction ensures, the iteration that
fetches it does. -/
theorem Ensures.fetched {answer : Progress → Machine → Prop}
    {fault : Fault → Machine → Prop} (hhalt : m.haltRequested = false)
    (htop : m.calls.items = rest.push f) (hi : m.program.code[f.ip]? = some i)
    (h : (dispatch reenter f.ip m.calls.size i).Ensures
      (m.observe (.instruction f.ip i m.operands.size)) answer fault) :
    (iterate reenter).Ensures m answer fault := by
  unfold Ensures
  rw [iterate_fetched hhalt (Stack.top?_of_push htop) hi]
  exact h

/-- A machine that stands at an instruction executes it, unless a halt holds
it back. -/
theorem Ensures.standing {answer : Progress → Machine → Prop}
    {fault : Fault → Machine → Prop} (htop : m.calls.items = rest.push f)
    (hi : m.program.code[f.ip]? = some i)
    (hhalted : answer (.halted .haltRequested) m)
    (h : (dispatch reenter f.ip m.calls.size i).Ensures
      (m.observe (.instruction f.ip i m.operands.size)) answer fault) :
    (iterate reenter).Ensures m answer fault := by
  by_cases hhalt : m.haltRequested
  · refine Ensures.get ?_
    rw [if_pos hhalt]
    exact hhalted
  · exact .fetched (eq_false_of_ne_true hhalt) htop hi h

/-- One step makes a move, and what it faults with can be blamed on where it
stood, if the system call that it may stand at stays beside the call stack. -/
theorem step_ensures_of_served
    (h : ServedBeside raises reenter { m with status := .running }) :
    (step reenter).Ensures m (fun _ m' => m.Turned m')
      (fun g m' => m.Turned m' ∧ m.Blamed raises g) := by
  have hb : m.Beside { m with status := .running } :=
    Machine.Beside.of_eq rfl rfl rfl
  refine Ensures.step (iterate_ensures h) ?_ ?_ ?_
  · intro m' ht
    exact ht.after hb
  · intro reason m' ht
    exact (ht.after hb).before (Machine.Beside.of_eq rfl rfl rfl)
  · rintro g m' ⟨ht, hblamed⟩
    exact ⟨(ht.after hb).before (Machine.Beside.of_eq rfl rfl rfl),
      hblamed.after hb⟩

/-- One step makes a move, and what it faults with can be blamed on where it
stood. A step of a machine with confined hosts needs no fuel. -/
theorem step_ensures (h : m.Confined raises) :
    (step reenter).Ensures m (fun _ m' => m.Turned m')
      (fun g m' => m.Turned m' ∧ m.Blamed raises g) := by
  have hrunning : Machine.Confined raises { m with status := .running } := h
  exact step_ensures_of_served (servedBeside_of_confined hrunning)

end Action

end StackMachine
