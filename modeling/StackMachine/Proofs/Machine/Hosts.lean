/-
Confined hosts: routines that use the operand stack and the halt flag, ask
where they were called from, and raise faults of their own, and nothing else.
They push no frame, register no handler and do not set the machine going.

Since a routine is a tree of requests, confinement is a predicate on the
tree. It has to hold behind every answer that the machine can give and behind
no other: a pop fails only for want of a value, a push only for want of room.

Two facts carry everything else. What goes on in a system call stays beside
the call stack (`syscall_beside`), and how a host would set the machine going
again does not matter (`step_reentry`).
-/
import StackMachine.Proofs.Machine.Ensures

namespace StackMachine

-- ================================================================ causes

/-- Causes that lie in what is being computed, not in an index or opcode of
the program. -/
def Cause.isOrdinary : Cause → Bool
  | .unknownSyscall _ | .hostError _ | .stackUnderflow | .stackOverflow _
  | .callDepthExceeded _
  | .value _ => true
  | _ => false

-- ========================================================== confinement

/-- A routine that uses the operand stack and the halt flag alone, and of its
own accord raises only faults in `raises`. -/
def Routine.Confined (raises : Fault → Prop) : Routine → Prop
  | .done => True
  | .raise fault => raises fault
  | .pop next =>
    (∀ v, (next (.ok v)).Confined raises)
      ∧ ∀ site, (next (.error ⟨site, .stackUnderflow⟩)).Confined raises
  | .push _ next =>
    (next (.ok ())).Confined raises
      ∧ ∀ site limit,
        (next (.error ⟨site, .stackOverflow limit⟩)).Confined raises
  | .requestHalt next => next.Confined raises
  | .clearHalt next => next.Confined raises
  | .position next => ∀ index, (next index).Confined raises
  | .pushFrame .. => False
  | .advance .. => False
  | .register .. => False
  | .registerPrint .. => False

/-- A handler all of whose calls are confined; printing always is. -/
def Handler.Confined (raises : Fault → Prop) : Handler → Prop
  | .print _ => True
  | .routine calls _ => ∀ k, (calls k).Confined raises

/-- A machine all of whose handlers are confined. -/
def Machine.Confined (raises : Fault → Prop) (m : Machine) : Prop :=
  ∀ entry ∈ m.handlers, entry.2.Confined raises

/-- What goes on beside the call stack: the program and the frames are as
before, and confined hosts are still confined. -/
structure Machine.Beside (m m' : Machine) : Prop where
  program : m'.program = m.program
  calls : m'.calls = m.calls
  confined : ∀ raises, m.Confined raises → m'.Confined raises

namespace Machine

theorem Beside.refl (m : Machine) : m.Beside m := ⟨rfl, rfl, fun _ h => h⟩

theorem Beside.trans {m₁ m₂ m₃ : Machine} (h : m₁.Beside m₂)
    (h' : m₂.Beside m₃) :
    m₁.Beside m₃ :=
  ⟨h'.program.trans h.program, h'.calls.trans h.calls,
    fun r hr => h'.confined r (h.confined r hr)⟩

/-- Confinement is about the handlers alone. -/
theorem Confined.of_handlers {raises : Fault → Prop} {m m' : Machine}
    (h : m.Confined raises) (hhandlers : m'.handlers = m.handlers) :
    m'.Confined raises := by
  unfold Confined
  rw [hhandlers]
  exact h

/-- Whatever leaves program, frames and handlers alone goes on beside
the call stack. -/
theorem Beside.of_eq {m m' : Machine} (hprogram : m'.program = m.program)
    (hcalls : m'.calls = m.calls) (hhandlers : m'.handlers = m.handlers) :
    m.Beside m' :=
  ⟨hprogram, hcalls, fun _ hr => hr.of_handlers hhandlers⟩

/-- The running frame is still where it was. -/
theorem Beside.frames {m m' : Machine} (h : m.Beside m')
    {rest : Array Frame} {f : Frame} (htop : m.calls.items = rest.push f) :
    m'.calls.items = rest.push f := by
  rw [h.calls]
  exact htop

/-- There are as many frames as before. -/
theorem Beside.size {m m' : Machine} (h : m.Beside m') :
    m'.calls.size = m.calls.size :=
  congrArg Stack.size h.calls

/-- An event reaches the observer and the halt flag only. -/
theorem beside_observe (m : Machine) (e : Event) : m.Beside (m.observe e) := by
  cases e <;> exact Beside.of_eq rfl rfl rfl

/-- Hosts are still confined after another confined one is registered. -/
theorem Confined.register {raises : Fault → Prop} {m : Machine}
    (h : m.Confined raises) {id : Int32} {handler : Handler}
    (hh : handler.Confined raises) :
    (m.register id handler).Confined raises := by
  intro entry hmem
  rcases List.mem_cons.mp hmem with rfl | hmem
  · exact hh
  · exact h entry (List.mem_filter.mp hmem).1

/-- A handler that is found is one of them. -/
theorem Confined.handler {raises : Fault → Prop} {m : Machine}
    (h : m.Confined raises) {id : Int32} {handler : Handler}
    (hfound : m.handler? id = some handler) : handler.Confined raises := by
  obtain ⟨l₁, l₂, hsplit, -⟩ := List.lookup_eq_some_iff.mp hfound
  refine h (id, handler) ?_
  rw [hsplit]
  exact List.mem_append_right _ List.mem_cons_self

end Machine

namespace Action

variable {raises : Fault → Prop} {reenter reenter' : Reentry} {m : Machine}
  {site : Nat}

-- ========================================================= host requests

theorem hostPop_ensures :
    hostPop.Ensures m (fun _ m' => m.Beside m')
      (fun f m' => m.Beside m' ∧ ∃ site, f = ⟨site, .stackUnderflow⟩) :=
  Ensures.get (popOperand_ensures (fun _ _ => Machine.Beside.of_eq rfl rfl rfl)
    fun _ => ⟨Machine.Beside.refl m, _, rfl⟩)

/-- A host that pushes a value finds room or is told the limit. -/
theorem hostPush_ensures (v : Value) :
    (hostPush v).Ensures m (fun _ m' => m.Beside m')
      (fun f m' => m.Beside m'
        ∧ ∃ site limit, f = ⟨site, .stackOverflow limit⟩) :=
  Ensures.get (pushOperand_ensures v (Machine.Beside.of_eq rfl rfl rfl)
    fun _ => ⟨Machine.Beside.refl m, _, _, rfl⟩)

/-- A confined routine that is handed the answer of a pop goes on confined. -/
theorem attempt_hostPop_ensures {next : Except Fault Value → Routine}
    (h : (Routine.pop next).Confined raises) {fault : Fault → Machine → Prop} :
    (attempt hostPop).Ensures m
      (fun answer m' => m.Beside m' ∧ (next answer).Confined raises)
      fault := by
  refine Ensures.attempt (hostPop_ensures.mono ?_ ?_)
  · intro v m' hb
    exact ⟨hb, h.1 v⟩
  · rintro f m' ⟨hb, site, rfl⟩
    exact ⟨hb, h.2 site⟩

/-- However a push is answered, the routine goes on as one that is
confined. -/
theorem attempt_hostPush_ensures {v : Value}
    {next : Except Fault Unit → Routine}
    (h : (Routine.push v next).Confined raises)
    {fault : Fault → Machine → Prop} :
    (attempt (hostPush v)).Ensures m
      (fun answer m' => m.Beside m' ∧ (next answer).Confined raises)
      fault := by
  refine Ensures.attempt ((hostPush_ensures v).mono ?_ ?_)
  · intro _ m' hb
    exact ⟨hb, h.1⟩
  · rintro f m' ⟨hb, site, limit, rfl⟩
    exact ⟨hb, h.2 site limit⟩

/-- A confined routine stays beside the call stack, and its faults are the
ones it raises. -/
theorem perform_ensures {r : Routine} (h : r.Confined raises) :
    (perform reenter r).Ensures m (fun _ m' => m.Beside m')
      (fun f m' => m.Beside m' ∧ raises f) := by
  induction r generalizing m with
  | done => exact Machine.Beside.refl m
  | raise fault => exact ⟨Machine.Beside.refl m, h⟩
  | pop next ih =>
      refine Ensures.bind _ (attempt_hostPop_ensures h) ?_
      rintro answer m' ⟨hb, hc⟩
      exact (ih answer hc).mono (fun _ _ hb' => hb.trans hb')
        fun _ _ hf => ⟨hb.trans hf.1, hf.2⟩
  | push v next ih =>
      refine Ensures.bind _ (attempt_hostPush_ensures h) ?_
      rintro answer m' ⟨hb, hc⟩
      exact (ih answer hc).mono (fun _ _ hb' => hb.trans hb')
        fun _ _ hf => ⟨hb.trans hf.1, hf.2⟩
  | requestHalt next ih =>
      have hb : m.Beside m.requestHalt := Machine.Beside.of_eq rfl rfl rfl
      exact Ensures.mono (m := m.requestHalt) (ih h)
        (fun _ _ hb' => hb.trans hb')
        fun _ _ hf => ⟨hb.trans hf.1, hf.2⟩
  | clearHalt next ih =>
      have hb : m.Beside m.clearHalt := Machine.Beside.of_eq rfl rfl rfl
      exact Ensures.mono (m := m.clearHalt) (ih h)
        (fun _ _ hb' => hb.trans hb')
        fun _ _ hf => ⟨hb.trans hf.1, hf.2⟩
  | position next ih => exact ih m.ip (h m.ip)
  -- a confined routine does none of these
  | pushFrame frame next => exact h.elim
  | advance how next => exact h.elim
  | register id calls next => exact h.elim
  | registerPrint id device next => exact h.elim

/-- A device keeps what it has room for and may then fail. -/
theorem write_ensures (id : Int32) (device : Option Device)
    (bytes : ByteArray) :
    (write id device bytes).Ensures m (fun _ m' => m.Beside m')
      (fun f m' => m.Beside m'
        ∧ ∃ site message, f = ⟨site, .hostError message⟩) := by
  have hregister : ∀ output left, m.Beside
      (Machine.register { m with output } id (.print left)) :=
    fun output left =>
      ⟨rfl, rfl, fun _ hr => Machine.Confined.register hr trivial⟩
  unfold Ensures write
  cases device with
  | none => exact Machine.Beside.of_eq rfl rfl rfl
  | some d =>
      by_cases hroom : bytes.size ≤ d.room
      · simp only [hroom, if_true]
        exact hregister _ _
      · simp only [hroom, if_false]
        exact ⟨hregister _ _, _, _, rfl⟩

/-- Printing takes a value and writes it, or fails for want of one or by its
device. -/
theorem print_ensures (id : Int32) (device : Option Device) :
    (print id device).Ensures m (fun _ m' => m.Beside m')
      (fun f m' => m.Beside m' ∧ f.cause.isOrdinary) := by
  refine Ensures.bind _ (hostPop_ensures.mono (fun _ _ hb => hb) ?_) ?_
  · rintro f m' ⟨hb, site, rfl⟩
    exact ⟨hb, rfl⟩
  · intro v m' hb
    refine (write_ensures id device _).mono (fun _ _ hb' => hb.trans hb') ?_
    rintro f m'' ⟨hb', site, message, rfl⟩
    exact ⟨hb.trans hb', rfl⟩

section Handlers

variable {id : Int32}

/-- A number without a handler is a fault, and nothing is reported. -/
theorem syscall_unknown (h : m.handler? id = none) :
    syscall reenter site id m = fail site (.unknownSyscall id) m := by
  unfold syscall
  rw [get_bind, h]

/-- A printing handler is reported and prints. -/
theorem syscall_print {device : Option Device}
    (h : m.handler? id = some (.print device)) :
    syscall reenter site id m
      = print id device (m.observe (.syscall site id)) := by
  unfold syscall
  rw [get_bind, h]
  rfl

/-- A system call whose handler is a routine counts the call and carries the
routine out. -/
theorem syscall_routine {calls : Nat → Routine} {count : Nat}
    (h : m.handler? id = some (.routine calls count)) :
    syscall reenter site id m = perform reenter (calls count)
      ((m.observe (.syscall site id)).register id
        (.routine calls (count + 1))) := by
  unfold syscall
  rw [get_bind, h]
  rfl

end Handlers

/-- A system call whose handler is confined stays beside the call stack, and
its faults lie in what is computed or are the host's. -/
theorem syscall_ensures {id : Int32}
    (h : ∀ handler, m.handler? id = some handler → handler.Confined raises) :
    (syscall reenter site id).Ensures m (fun _ m' => m.Beside m')
      (fun f m' => m.Beside m' ∧ (f.cause.isOrdinary ∨ raises f)) := by
  apply Ensures.get
  cases hfound : m.handler? id with
  | none => exact ⟨Machine.Beside.refl m, .inl rfl⟩
  | some handler =>
      have hobserve := m.beside_observe (.syscall site id)
      cases handler with
      | print device =>
          refine Ensures.mono (m := m.observe (.syscall site id))
            (print_ensures id device)
            (fun _ _ hb => hobserve.trans hb) ?_
          intro f m' hf
          exact ⟨hobserve.trans hf.1, .inl hf.2⟩
      | routine calls count =>
          -- counting the call registers the same routines again
          let m₁ :=
            (m.observe (.syscall site id)).register id
              (.routine calls (count + 1))
          have hb : m.Beside m₁ := by
            refine ⟨hobserve.program, hobserve.calls, fun r hr => ?_⟩
            have hcalls : ∀ k, (calls k).Confined r := hr.handler hfound
            exact (hobserve.confined r hr).register hcalls
          have hcalls : ∀ k, (calls k).Confined raises := h _ hfound
          refine Ensures.mono (m := m₁) (perform_ensures (hcalls count))
            (fun _ _ hb' => hb.trans hb') ?_
          intro f m' hf
          exact ⟨hb.trans hf.1, .inr hf.2⟩

-- ============================================================== re-entry

/-- A confined routine does not set the machine going. -/
theorem perform_reentry {r : Routine} (h : r.Confined raises) :
    perform reenter r m = perform reenter' r m := by
  induction r generalizing m with
  | done => rfl
  | raise fault => rfl
  | pop next ih =>
      refine Ensures.bind_congr _ (attempt_hostPop_ensures h) ?_
      rintro answer m' ⟨-, hc⟩
      exact ih answer hc
  | push v next ih =>
      refine Ensures.bind_congr _ (attempt_hostPush_ensures h) ?_
      rintro answer m' ⟨-, hc⟩
      exact ih answer hc
  | requestHalt next ih => exact ih h
  | clearHalt next ih => exact ih h
  | position next ih => exact ih m.ip (h m.ip)
  | pushFrame frame next => exact h.elim
  | advance how next => exact h.elim
  | register id calls next => exact h.elim
  | registerPrint id device next => exact h.elim

/-- How a host would set the machine going does not matter to a system call of
confined hosts. -/
theorem syscall_reentry {id : Int32}
    (h : ∀ handler, m.handler? id = some handler → handler.Confined raises) :
    syscall reenter site id m = syscall reenter' site id m := by
  refine Ensures.bind_congr (fun x m' => x = m ∧ m' = m) ⟨rfl, rfl⟩ ?_
  rintro _ m ⟨rfl, rfl⟩
  cases hfound : m.handler? id with
  | none => rfl
  | some handler =>
      cases handler with
      | print device => rfl
      | routine calls count =>
          have hcalls : ∀ k, (calls k).Confined raises := h _ hfound
          exact perform_reentry (hcalls count)

/-- An iteration depends on how a host would set the machine going only if the
system call does that it makes. -/
theorem iterate_reentry_of_syscall
    (h : ∀ f i, m.haltRequested = false → m.calls.top? = some f →
      m.program.code[f.ip]? = some i →
      i.opcode = .syscall →
      syscall reenter f.ip i.operand
          (m.observe (.instruction f.ip i m.operands.size))
        = syscall reenter' f.ip i.operand
          (m.observe (.instruction f.ip i m.operands.size))) :
    iterate reenter m = iterate reenter' m := by
  change (if m.haltRequested then _ else _ : Action Progress) m
    = (if m.haltRequested then _ else _ : Action Progress) m
  cases hhalt : m.haltRequested with
  | true => rfl
  | false =>
      rw [if_neg Bool.false_ne_true, if_neg Bool.false_ne_true]
      cases hf : m.calls.top? with
      | none => rfl
      | some f =>
          by_cases hend : f.ip = m.program.length
          · simp only [hend, if_true]
          · simp only [hend, if_false]
            cases hi : m.program.code[f.ip]? with
            | none => rfl
            | some i =>
                show dispatch reenter _ _ _ (m.observe _)
                  = dispatch reenter' _ _ _ (m.observe _)
                have hsyscall := h f i hhalt hf hi
                -- no other opcode hands the machine to a host
                unfold dispatch execute
                cases hop : i.opcode with
                | syscall =>
                    simp only [Bind.bind, EStateM.bind]
                    rw [hsyscall hop]
                | _ => rfl

/-- Nor does it to an iteration. -/
theorem iterate_reentry (h : m.Confined raises) :
    iterate reenter m = iterate reenter' m := by
  refine iterate_reentry_of_syscall fun f i _ _ _ _ => ?_
  have hobserved :=
    (m.beside_observe (.instruction f.ip i m.operands.size)).confined raises h
  exact syscall_reentry fun _ hfound => hobserved.handler hfound

/-- How a host would set the machine going does not matter when no host
does. -/
theorem step_reentry (h : m.Confined raises) :
    step reenter m = step reenter' m := by
  have hrunning : Machine.Confined raises { m with status := .running } := h
  unfold step
  rw [iterate_reentry hrunning]

end Action

end StackMachine
