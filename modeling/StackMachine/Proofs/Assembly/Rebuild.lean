/-
Carrying out the statements of a listing rebuilds the program. What the
draft holds after the statements of the first `k` positions has a closed form
(`draftUpTo`), in which every part is collected position by position: the
instructions, with zero where a name stands for the operand, the labels, the
functions that start there, and the references by name. One step lemma adds a
position (`positionStatements_apply`), the run lemma all of them, and
building puts the operands back where they came from.
-/
import StackMachine.Proofs.Assembly.Names
import StackMachine.Proofs.Assembly.Writing

namespace StackMachine.Assembly

open Statement Token

variable {p : Program}

-- ====================================================== reading statements

/-- Carrying out statements and then more. -/
theorem foldlM_append_ok {ss ss' : List Statement} {d d' d'' : Draft}
    (h : ss.foldlM Draft.apply d = .ok d')
    (h' : ss'.foldlM Draft.apply d' = .ok d'') :
    (ss ++ ss').foldlM Draft.apply d = .ok d'' := by
  rw [List.foldlM_append, h]
  exact h'

/-- Reading a line does to the draft what its statements do, and refuses what
they refuse. -/
theorem foldlM_step (number : Nat) (r : Reading) (ss : List Statement) :
    (ss.foldlM (Reading.step number) r).map (·.draft)
      = (ss.foldlM Draft.apply r.draft).mapError (.build (some number)) := by
  induction ss generalizing r with
  | nil => rfl
  | cons s ss ih =>
      rw [List.foldlM_cons, List.foldlM_cons, Reading.step_eq]
      cases r.draft.apply s with
      | error e => rfl
      | ok d => exact ih { r.note number s with draft := d }

/-- A line that is carried out on the draft is read. -/
theorem foldlM_step_ok {ss : List Statement} {r : Reading} {d : Draft}
    (number : Nat) (h : ss.foldlM Draft.apply r.draft = .ok d) :
    ∃ r', ss.foldlM (Reading.step number) r = .ok r' ∧ r'.draft = d := by
  have hmap := foldlM_step number r ss
  rw [h] at hmap
  cases hr : ss.foldlM (Reading.step number) r with
  | error e =>
      rw [hr] at hmap
      cases hmap
  | ok r' =>
      rw [hr] at hmap
      exact ⟨r', rfl, Except.ok.inj hmap⟩

/-- Reading the lines of statements does to the draft what the statements
do. -/
theorem AsksAll.readLines {lines : List String} {ss : List Statement}
    (h : AsksAll lines ss) {r : Reading} {d : Draft}
    (hd : ss.foldlM Draft.apply r.draft = .ok d) (number : Nat) :
    ∃ r', r.readLines ((lines.map String.toList).zipIdx number) = .ok r'
      ∧ r'.draft = d := by
  induction h generalizing r number with
  | nil =>
      cases hd
      exact ⟨r, rfl, rfl⟩
  | @cons line lines ss ss' hline _ ih =>
      rw [List.foldlM_append] at hd
      cases hs : ss.foldlM Draft.apply r.draft with
      | error e =>
          rw [hs] at hd
          cases hd
      | ok d' =>
          rw [hs] at hd
          obtain ⟨r', hr', hdraft⟩ := foldlM_step_ok number hs
          have hread : r.readLine (line.toList, number) = .ok r' := by
            rw [Reading.readLine, hline.ofLine]
            exact hr'
          rw [List.map_cons, List.zipIdx_cons, Reading.readLines,
            List.foldlM_cons, hread]
          refine ih ?_ (number + 1)
          rw [hdraft]
          exact hd

/-- A text whose lines ask for statements is assembled to what these build. -/
theorem assemble_of_statements {text : String} {lines : List String}
    {ss : List Statement} {d : Draft}
    (htext : Text.lines text = lines.map String.toList) (h : AsksAll lines ss)
    (hd : ss.foldlM Draft.apply {} = .ok d) (hp : d.build = .ok p) :
    assemble text = .ok p := by
  obtain ⟨r, hr, rfl⟩ := h.readLines (r := {}) hd 1
  rw [assemble, htext, hr]
  show r.finish = _
  rw [Reading.finish, hp]

-- ============================================================ declarations

/-- A function as it is declared. -/
def declaration (start : Nat ⊕ String) (f : Function) : Declaration :=
  { name := f.name, start, params := f.params, locals := f.locals }

/-- Functions with names of their own are all declared. -/
theorem Draft.declare_all (start : Function → Start) {fs : List Function}
    {d : Draft} (hindexed : d.Indexed)
    (h : (d.functions.toList.map (·.name) ++ fs.map (·.name)).Nodup)
    {decls : List Declaration}
    (hdecls : decls = fs.map fun f =>
      declaration ((start f).resolve d.code.position) f) :
    (fs.map fun f =>
        Statement.function f.name f.params f.locals (start f)).foldlM
      Draft.apply d
      = .ok { d with
          functions := d.functions ++ decls.toArray
          names := namesOf (d.functions.toList ++ decls) } := by
  subst hdecls
  induction fs generalizing d with
  | nil =>
      rw [List.map_nil, List.map_nil, Array.append_empty, List.append_nil,
        ← hindexed.names]
      rfl
  | cons f fs ih =>
      -- the names are distinct, so this one has not been declared
      have hfresh : f.name ∉ d.functions.toList.map (·.name) := fun hmem =>
        (List.nodup_append.mp h).2.2 _ hmem _ List.mem_cons_self rfl
      have hdeclare : d.apply (.function f.name f.params f.locals (start f))
          = .ok { d with
              functions := d.functions.push
                (declaration ((start f).resolve d.code.position) f)
              names := (f.name, d.functions.size) :: d.names } := by
        show d.declare _ _ _ _ = _
        rw [hindexed.declare_eq, if_neg hfresh]
        rfl
      rw [List.map_cons, List.foldlM_cons, hdeclare]
      show List.foldlM Draft.apply _ _ = _
      rw [ih (hindexed.apply hdeclare)]
      · simp
      · rw [Array.toList_push, List.map_append, List.append_assoc]
        exact h

-- ================================================================== labels

/-- Labels bound to the positions they are named for. -/
def labelsAt (positions : List Nat) : List (String × Nat) :=
  positions.map fun position => (labelName position, position)

/-- A generated label is found at its own position exactly if it is among the
bound ones, since no two positions share one. -/
theorem lookup_labelsAt (positions : List Nat) (position : Nat) :
    (labelsAt positions).lookup (labelName position)
      = if position ∈ positions then some position else none := by
  induction positions with
  | nil => rfl
  | cons first rest ih =>
      unfold labelsAt at ih ⊢
      rw [List.map_cons, List.lookup_cons, ih]
      by_cases heq : position = first
      · subst heq
        simp
      · have hname : (labelName position == labelName first) = false :=
          beq_eq_false_iff_ne.mpr fun h => heq (labelName_injective h)
        rw [hname]
        simp [heq]

-- ============================================================== references

/-- An instruction as the draft holds it before names are resolved. -/
def draftInstruction (p : Program) (i : Instruction) : Instruction :=
  match writtenOperand p i with
  | .absent => { opcode := i.opcode }
  | .number n => { opcode := i.opcode, operand := n }
  | .label _ => { opcode := i.opcode }
  | .function _ => { opcode := .call }

/-- The label that the instruction at a position names. -/
def jumpAt? (p : Program) (position : Nat) : Option (Nat × String) :=
  match p.code[position]?.map (writtenOperand p) with
  | some (.label name) => some (position, name)
  | _ => none

/-- The function that the instruction at a position names. -/
def callAt? (p : Program) (position : Nat) : Option (Nat × String) :=
  match p.code[position]?.map (writtenOperand p) with
  | some (.function name) => some (position, name)
  | _ => none

-- =============================================================== the draft

/-- The start of a function as its declaration has it. -/
def declaredStart (p : Program) (f : Function) : Nat ⊕ String :=
  if declaredInline p then .inl f.entry else (headerStart p f).resolve 0

/-- The functions that are declared at the top or start before a position. -/
def declaredUpTo (p : Program) (position : Nat) : List Function :=
  headers p ++ (List.range position).flatMap
    fun k => (inlineStarts p).filter (·.entry = k)

/-- Their declarations. -/
def declarationsUpTo (p : Program) (position : Nat) : List Declaration :=
  (declaredUpTo p position).map fun f => declaration (declaredStart p f) f

/-- The draft after the statements of the positions below `position`. -/
def draftUpTo (p : Program) (position : Nat) : Draft where
  code := {
    instructions :=
      ((p.code.toList.take position).map (draftInstruction p)).toArray
    labels :=
      labelsAt ((List.range position).filter (· ∈ labelled p)).reverse
    jumps := ((List.range position).filterMap (jumpAt? p)).toArray }
  constants := p.constants
  functions := (declarationsUpTo p position).toArray
  names := namesOf (declarationsUpTo p position)
  calls := ((List.range position).filterMap (callAt? p)).toArray
  entry := some p.entryFunction.name

-- ============================================== functions where they start

/-- The check of neighbours bounds every earlier entry by every later one. -/
theorem ascending_pairwise {entries : List Nat} (h : ascending entries) :
    entries.Pairwise (· ≤ ·) := by
  fun_induction ascending entries with
  | case1 a b rest ih =>
      obtain ⟨hle, hrest⟩ := Bool.and_eq_true_iff.mp h
      have hpairwise := ih hrest
      refine List.pairwise_cons.mpr ⟨fun c hc => ?_, hpairwise⟩
      rcases List.mem_cons.mp hc with rfl | hc
      · exact of_decide_eq_true hle
      · exact Nat.le_trans (of_decide_eq_true hle)
          ((List.pairwise_cons.mp hpairwise).1 c hc)
  | case2 entries hshort =>
      match entries, hshort with
      | [], _ => exact List.Pairwise.nil
      | [a], _ => exact List.pairwise_singleton _ a
      | a :: b :: rest, hshort => exact (hshort a b rest rfl).elim

/-- In the order of their entries, functions that start before `k` come before
those that start at `k`. -/
theorem filter_lt_succ {fs : List Function}
    (h : (fs.map (·.entry)).Pairwise (· ≤ ·)) (k : Nat) :
    fs.filter (·.entry < k) ++ fs.filter (·.entry = k)
      = fs.filter (·.entry < k + 1) := by
  induction fs with
  | nil => rfl
  | cons f fs ih =>
      rw [List.map_cons, List.pairwise_cons] at h
      have ih := ih h.2
      have hge : ∀ g ∈ fs, f.entry ≤ g.entry :=
        fun g hg => h.1 _ (List.mem_map_of_mem hg)
      by_cases hlt : f.entry < k
      · have hne : f.entry ≠ k := Nat.ne_of_lt hlt
        have hsucc : f.entry < k + 1 := Nat.lt_succ_of_lt hlt
        simp only [List.filter_cons, hlt, hne, hsucc, decide_true,
          decide_false, if_true, Bool.false_eq_true, if_false,
          List.cons_append, ih]
      · -- all that follow start at `k` or later
        have hnone : fs.filter (·.entry < k) = [] := by
          refine List.filter_eq_nil_iff.mpr fun g hg => ?_
          have hle := hge g hg
          simp only [decide_eq_true_eq]
          omega
        rw [hnone, List.nil_append] at ih
        have hhead : f.entry = k ↔ f.entry < k + 1 := by omega
        simp only [List.filter_cons, hlt, hnone, ih, hhead]
        rfl

/-- Functions sorted by their entries are found again position by position. -/
theorem flatMap_filter_entry {fs : List Function}
    (h : (fs.map (·.entry)).Pairwise (· ≤ ·)) (n : Nat) :
    ((List.range n).flatMap fun k => fs.filter (·.entry = k))
      = fs.filter (·.entry < n) := by
  induction n with
  | zero => simp
  | succ n ih =>
      rw [List.range_succ, List.flatMap_append, ih, List.flatMap_cons,
        List.flatMap_nil, List.append_nil, filter_lt_succ h]

/-- One position more declares the functions that start at it. -/
theorem declaredUpTo_succ (p : Program) (k : Nat) :
    declaredUpTo p (k + 1) = declaredUpTo p k ++ (inlineStarts p).filter
      (·.entry = k) := by
  rw [declaredUpTo, List.range_succ, List.flatMap_append, ← List.append_assoc,
    List.flatMap_cons, List.flatMap_nil, List.append_nil]
  rfl

/-- Functions are declared in the order of the table. -/
theorem declaredUpTo_eq (p : Program) (k : Nat) :
    declaredUpTo p k
      = if declaredInline p then p.functions.toList.filter (·.entry < k)
      else p.functions.toList := by
  unfold declaredUpTo headers inlineStarts
  by_cases hinline : declaredInline p
  · have hascending : ascending (p.functions.toList.map (·.entry)) :=
      (Bool.and_eq_true_iff.mp hinline).1
    rw [if_pos hinline, if_pos hinline, if_pos hinline, List.nil_append,
      flatMap_filter_entry (ascending_pairwise hascending)]
  · rw [if_neg hinline, if_neg hinline, if_neg hinline]
    simp

/-- What is declared up to a position comes in the order of the table. -/
theorem declaredUpTo_sublist (p : Program) (k : Nat) :
    (declaredUpTo p k).Sublist p.functions.toList := by
  rw [declaredUpTo_eq]
  split
  · exact List.filter_sublist
  · exact List.Sublist.refl _

/-- At the position behind the code every function is declared. -/
theorem declaredUpTo_length_succ (p : Program) :
    declaredUpTo p (p.length + 1) = p.functions.toList := by
  rw [declaredUpTo_eq]
  split
  · next hinline =>
    refine List.filter_eq_self.mpr fun f hf => ?_
    have hall := (Bool.and_eq_true_iff.mp hinline).2
    have hle := Array.all_eq_true'.mp hall f (Array.mem_toList_iff.mp hf)
    simp only [decide_eq_true_eq] at hle ⊢
    omega
  · rfl

-- ============================================================ one position

/-- A label that is not bound yet is bound to the next instruction. -/
theorem Draft.apply_label {d : Draft} {bound : Prop} [Decidable bound]
    {name : String} (h : d.code.label? name = none) :
    (if bound then [Statement.label name] else []).foldlM Draft.apply d
      = .ok { d with code := { d.code with
          labels := (if bound then [(name, d.code.position)] else [])
            ++ d.code.labels } } := by
  by_cases hbound : bound
  · have hmark : d.apply (.label name)
        = .ok { d with code :=
            { d.code with labels := (name, d.code.position) :: d.code.labels }
              } := by
      show d.mark name = _
      rw [Draft.mark, Code.mark, h]
      rfl
    rw [if_pos hbound, if_pos hbound, List.foldlM_cons, hmark]
    rfl
  · rw [if_neg hbound, if_neg hbound]
    rfl

/-- An instruction is appended as the draft holds it, with what it names
noted beside it. -/
theorem Draft.apply_instruction {d : Draft} {k : Nat}
    (h : ∀ i, p.code[k]? = some i → d.code.position = k) :
    (match p.code[k]? with
      | some i => [Statement.instruction i.opcode (writtenOperand p i)]
      | none => []).foldlM Draft.apply d
      = .ok { d with
          code := { d.code with
            instructions := d.code.instructions
              ++ (p.code[k]?.map (draftInstruction p)).toList.toArray
            jumps := d.code.jumps ++ (jumpAt? p k).toList.toArray }
          calls := d.calls ++ (callAt? p k).toList.toArray } := by
  cases hi : p.code[k]? with
  | none => simp [jumpAt?, callAt?, hi]; rfl
  | some i =>
      have hposition := h i hi
      cases hoperand : writtenOperand p i <;>
        simp [jumpAt?, callAt?, hi, hoperand, draftInstruction, Draft.apply,
          Draft.emit, Code.emit, Draft.emitJump, Code.emitJump, Draft.emitCall,
          hposition]

/-- The draft stands at the position it was read up to. -/
theorem position_draftUpTo {k : Nat} (h : k ≤ p.length) :
    (draftUpTo p k).code.position = k := by
  have hlength : k ≤ p.code.toList.length := h
  simp only [draftUpTo, Code.position, List.size_toArray, List.length_map,
    List.length_take]
  omega

/-- The names of a program that can be listed are its own, so the map that
belongs to its functions agrees with their table. -/
theorem indexed_draftUpTo (h : Listable p) (k : Nat) :
    (draftUpTo p k).Indexed := by
  refine ⟨rfl, ?_⟩
  have hsublist := (declaredUpTo_sublist p k).map (·.name)
  simpa [draftUpTo, declarationsUpTo, declaration, Function.comp_def]
    using h.nodup.sublist hsublist

/-- The functions that start at a position are added to those that start
before it. -/
theorem declare_inline (h : Listable p) {k : Nat} (hk : k ≤ p.length) :
    (((inlineStarts p).filter (·.entry = k)).map fun f =>
        Statement.function f.name f.params f.locals .here).foldlM Draft.apply
          (draftUpTo p k)
      = .ok { draftUpTo p k with
          functions := (draftUpTo p (k + 1)).functions
          names := (draftUpTo p (k + 1)).names } := by
  have hposition := position_draftUpTo hk
  have hnames : ((draftUpTo p k).functions.toList.map (·.name)
      ++ ((inlineStarts p).filter (·.entry = k)).map (·.name)).Nodup := by
    have hsublist := (declaredUpTo_sublist p (k + 1)).map (·.name)
    rw [declaredUpTo_succ, List.map_append] at hsublist
    simpa [draftUpTo, declarationsUpTo, declaration, Function.comp_def]
      using h.nodup.sublist hsublist
  have hstart : ∀ f ∈ (inlineStarts p).filter (·.entry = k),
      declaration (declaredStart p f) f = declaration (.inl k) f := by
    intro f hf
    obtain ⟨hmem, hentry⟩ := List.mem_filter.mp hf
    unfold inlineStarts at hmem
    split at hmem
    · next hinline =>
      rw [declaredStart, if_pos hinline, of_decide_eq_true hentry]
    · -- functions out of order are all declared at the top
      exact absurd hmem List.not_mem_nil
  rw [Draft.declare_all (fun _ => .here) (indexed_draftUpTo h k) hnames rfl,
    hposition]
  simp only [draftUpTo, declarationsUpTo, declaredUpTo_succ, List.map_append,
    List.append_toArray]
  rw [List.map_congr_left hstart]
  rfl

/-- What a position adds to the draft. -/
theorem draftUpTo_succ (p : Program) (k : Nat) :
    draftUpTo p (k + 1) = { draftUpTo p k with
      functions := (draftUpTo p (k + 1)).functions
      names := (draftUpTo p (k + 1)).names
      code := {
        instructions := (draftUpTo p k).code.instructions
          ++ (p.code[k]?.map (draftInstruction p)).toList.toArray
        labels := (if k ∈ labelled p then [(labelName k, k)] else [])
          ++ (draftUpTo p k).code.labels
        jumps := (draftUpTo p k).code.jumps ++ (jumpAt? p k).toList.toArray }
      calls := (draftUpTo p k).calls ++ (callAt? p k).toList.toArray } := by
  have hlabels :
      labelsAt ((List.range (k + 1)).filter (· ∈ labelled p)).reverse
      = (if k ∈ labelled p then [(labelName k, k)] else [])
        ++ labelsAt ((List.range k).filter (· ∈ labelled p)).reverse := by
    rw [List.range_succ, List.filter_append, List.reverse_append, labelsAt,
      List.map_append]
    by_cases hk : k ∈ labelled p
    · simp [hk, labelsAt]
    · simp [hk, labelsAt]
  have hsome : ∀ at? : Nat →
      Option (Nat × String), ((List.range (k + 1)).filterMap at?).toArray
      = ((List.range k).filterMap at?).toArray ++ (at? k).toList.toArray :=
    fun at? => by
    rw [List.range_succ, List.filterMap_append, List.append_toArray]
    cases hat : at? k <;> simp [hat]
  have hinstructions :
      ((p.code.toList.take (k + 1)).map (draftInstruction p)).toArray
      = ((p.code.toList.take k).map (draftInstruction p)).toArray
        ++ (p.code[k]?.map (draftInstruction p)).toList.toArray := by
    rw [List.take_add_one, List.map_append, List.append_toArray,
      Array.getElem?_toList]
    cases p.code[k]? <;> rfl
  simp only [draftUpTo, hlabels, hsome, hinstructions]

/-- The statements of a position take the draft to the next. -/
theorem positionStatements_apply (h : Listable p) {k : Nat}
    (hk : k ≤ p.length) :
    (positionStatements p (inlineStarts p) k).foldlM Draft.apply
      (draftUpTo p k)
      = .ok (draftUpTo p (k + 1)) := by
  have hposition := position_draftUpTo hk
  have hfresh : (draftUpTo p k).code.label? (labelName k) = none := by
    rw [Code.label?, draftUpTo, lookup_labelsAt, if_neg]
    simp
  let d₁ : Draft := { draftUpTo p k with
    functions := (draftUpTo p (k + 1)).functions
    names := (draftUpTo p (k + 1)).names }
  have hlabel := @Draft.apply_label d₁ (k ∈ labelled p) _ (labelName k) hfresh
  rw [show d₁.code.position = k from hposition] at hlabel
  refine foldlM_append_ok (foldlM_append_ok (declare_inline h hk) hlabel) ?_
  let d₂ : Draft := { d₁ with code := { d₁.code with
    labels :=
      (if k ∈ labelled p then [(labelName k, k)] else []) ++ d₁.code.labels } }
  have hinstruction :=
    Draft.apply_instruction (p := p) (d := d₂) fun _ _ => hposition
  exact hinstruction.trans (congrArg Except.ok (draftUpTo_succ p k).symm)

/-- Position by position, the statements make the draft of the program, by
induction on how many positions have been read. -/
theorem positions_apply (h : Listable p) {n : Nat} (hn : n ≤ p.length + 1) :
    ((List.range n).flatMap (positionStatements p (inlineStarts p))).foldlM
        Draft.apply (draftUpTo p 0)
      = .ok (draftUpTo p n) := by
  induction n with
  | zero => rfl
  | succ n ih =>
      rw [List.range_succ, List.flatMap_append, List.flatMap_cons,
        List.flatMap_nil, List.append_nil]
      exact foldlM_append_ok (ih (Nat.le_of_succ_le hn))
        (positionStatements_apply h (Nat.le_of_succ_le_succ hn))

-- ============================================================ the whole text

/-- Constants are appended to the pool in their order. -/
theorem Draft.apply_constants {vs : List Value} {d : Draft} :
    (vs.map Statement.constant).foldlM Draft.apply d
      = .ok { d with constants := d.constants ++ vs.toArray } := by
  induction vs generalizing d with
  | nil =>
      rw [Array.append_empty]
      rfl
  | cons v vs ih =>
      show (vs.map Statement.constant).foldlM Draft.apply (d.constant v) = _
      rw [ih]
      simp [Draft.constant]

/-- The declarations at the top make the draft of the program before its
first position. -/
theorem declare_headers (h : Listable p) :
    ((headers p).map fun f =>
      Statement.function f.name f.params f.locals (headerStart p f)).foldlM
        Draft.apply { constants := p.constants }
      = .ok { draftUpTo p 0 with entry := none } := by
  have hnames :
      (({ constants := p.constants } : Draft).functions.toList.map (·.name)
        ++ (headers p).map (·.name)).Nodup := by
    have hsublist := (declaredUpTo_sublist p 0).map (·.name)
    have hheaders : declaredUpTo p 0 = headers p := List.append_nil _
    rw [hheaders] at hsublist
    exact h.nodup.sublist hsublist
  have hstart : ∀ f ∈ headers p,
      declaration ((headerStart p f).resolve 0) f
        = declaration (declaredStart p f) f := by
    intro f hf
    unfold headers at hf
    split at hf
    · -- functions in order are all declared where they start
      exact absurd hf List.not_mem_nil
    · next hinline => rw [declaredStart, if_neg hinline]
  have hindexed : Draft.Indexed { constants := p.constants } :=
    Draft.indexed_empty.of_eq rfl rfl
  rw [Draft.declare_all (headerStart p) hindexed hnames
    (List.map_congr_left hstart).symm]
  simp [draftUpTo, declarationsUpTo, declaredUpTo, labelsAt]

/-- The statements of a listing leave a draft that holds all of the
program. -/
theorem listingStatements_apply (h : Listable p) :
    (listingStatements p).foldlM Draft.apply {}
      = .ok (draftUpTo p (p.length + 1)) := by
  have hconstants : (p.constants.toList.map Statement.constant).foldlM
      Draft.apply {}
      = .ok { constants := p.constants } := by
    rw [Draft.apply_constants]
    simp
  refine foldlM_append_ok
    (foldlM_append_ok (foldlM_append_ok hconstants (declare_headers h)) ?_)
    (positions_apply h (Nat.le_refl _))
  rfl

-- ================================================================ building

/-- The operand of the instruction at a position. -/
def operandAt (p : Program) (position : Nat) : Int32 :=
  match p.code[position]? with
  | some i => i.operand
  | none => 0

/-- An index that an instruction names fits the operand that it was read
from. -/
theorem positionOperand_index {i : Instruction} {n : Nat}
    (h : i.index? = some n) :
    positionOperand n = .ok i.operand := by
  have hhi := i.operand.toInt_lt
  obtain ⟨hpos, hn⟩ : 0 ≤ i.operand.toInt ∧ i.operand.toInt.toNat = n := by
    simpa [Instruction.index?] using h
  have hlt : n < 0x80000000 := by omega
  have hoperand : (n : Int) = i.operand.toInt := by omega
  rw [positionOperand, if_pos hlt, ← Int32.ofInt_eq_ofNat, hoperand,
    Int32.ofInt_toInt]

section Operands

variable
  {resolve : Array Instruction → Nat × String →
    Except BuildError (Array Instruction)}
  {refs : List (Nat × String)}

/-- Operands put into the instructions at the places of some references. -/
def restore (p : Program) (refs : List (Nat × String))
    (is : Array Instruction) : Array Instruction :=
  refs.foldl (fun is ref => Code.setOperand is ref.1 (operandAt p ref.1)) is

/-- Resolving references that all stand for the operands of the program puts
those in. -/
theorem foldlM_restore
    (h : ∀ is, ∀ ref ∈ refs,
      resolve is ref = .ok (Code.setOperand is ref.1 (operandAt p ref.1)))
    (is : Array Instruction) :
    refs.toArray.foldlM resolve is = .ok (restore p refs is) := by
  rw [List.foldlM_toArray]
  induction refs generalizing is with
  | nil => rfl
  | cons ref refs ih =>
      rw [List.foldlM_cons, h is ref List.mem_cons_self]
      exact ih (fun is ref hmem => h is ref (List.mem_cons_of_mem _ hmem)) _

/-- Operands are put in where the references stand and nowhere else, however
often one is put in. -/
theorem getElem?_restore (is : Array Instruction) (k : Nat) :
    (restore p refs is)[k]?
      = if k ∈ refs.map (·.1) then
          is[k]?.map fun i => { i with operand := operandAt p k }
        else is[k]? := by
  induction refs generalizing is with
  | nil => rfl
  | cons ref refs ih =>
      show (restore p refs
        (Code.setOperand is ref.1 (operandAt p ref.1)))[k]? = _
      rw [ih, Code.setOperand, Array.getElem?_modify, List.map_cons]
      by_cases hk : ref.1 = k
      · subst hk
        by_cases hmem : ref.1 ∈ refs.map (·.1)
          <;> simp [hmem, Option.map_map, Function.comp_def]
      · by_cases hmem : k ∈ refs.map (·.1) <;> simp [hmem, hk, Ne.symm hk]

end Operands

/-- An operand that is written as a label is that of a jump into the code or
right behind it. -/
theorem writtenOperand_eq_label {i : Instruction} {name : String}
    (h : writtenOperand p i = .label name) :
    ∃ target, target? p i = some target ∧ name = labelName target := by
  unfold writtenOperand at h
  split at h
  · cases h
  · cases h
  · cases h
  · cases h
  · split at h
    · next target htarget =>
      cases h
      exact ⟨target, htarget, rfl⟩
    · cases h
  · split at h <;> cases h

/-- An operand that is written as a name is the index of a function in the
table. -/
theorem writtenOperand_eq_function {i : Instruction} {name : String}
    (h : writtenOperand p i = .function name) :
    i.opcode.operandKind = .function
      ∧ ∃ n f, i.index? = some n ∧ p.functions[n]? = some f
      ∧ name = f.name := by
  unfold writtenOperand at h
  split at h
  · cases h
  · cases h
  · cases h
  · cases h
  · split at h <;> cases h
  · next hkind =>
    split at h
    · next f hf =>
      cases h
      obtain ⟨n, hn, hfn⟩ := Option.bind_eq_some_iff.mp hf
      exact ⟨hkind, n, f, hn, hfn, rfl⟩
    · cases h

/-- An operand is only left out if the opcode has none. -/
theorem writtenOperand_eq_absent {i : Instruction}
    (h : writtenOperand p i = .absent) :
    i.opcode.operandKind = .unused := by
  unfold writtenOperand at h
  split at h
  · assumption
  · cases h
  · cases h
  · cases h
  · split at h <;> cases h
  · split at h <;> cases h

/-- An operand that is written as a number is written as itself. -/
theorem writtenOperand_eq_number {i : Instruction} {n : Int32}
    (h : writtenOperand p i = .number n) : n = i.operand := by
  unfold writtenOperand at h
  split at h
  · cases h
  · cases h
    rfl
  · cases h
    rfl
  · cases h
    rfl
  · split at h
    · cases h
    · cases h
      rfl
  · split at h
    · cases h
    · cases h
      rfl

/-- A target is the index of a jump that has a label to name. -/
theorem target?_eq_some {i : Instruction} {target : Nat}
    (h : target? p i = some target) :
    i.index? = some target ∧ target ≤ p.length := by
  unfold target? at h
  split at h
  · simpa [Option.filter_eq_some_iff] using h
  · cases h

/-- A call noted at a position is that of an instruction whose operand is
written as a name. -/
theorem callAt?_eq_some {k : Nat} {ref : Nat × String}
    (h : callAt? p k = some ref) :
    ref.1 = k ∧ ∃ i, p.code[k]? = some i
      ∧ writtenOperand p i = .function ref.2 := by
  unfold callAt? at h
  split at h
  · next name heq =>
    cases h
    obtain ⟨i, hi, hoperand⟩ := Option.map_eq_some_iff.mp heq
    exact ⟨rfl, i, hi, hoperand⟩
  · cases h

/-- A jump noted at a position is that of an instruction whose operand is
written as a label. -/
theorem jumpAt?_eq_some {k : Nat} {ref : Nat × String}
    (h : jumpAt? p k = some ref) :
    ref.1 = k ∧ ∃ i, p.code[k]? = some i
      ∧ writtenOperand p i = .label ref.2 := by
  unfold jumpAt? at h
  split at h
  · next name heq =>
    cases h
    obtain ⟨i, hi, hoperand⟩ := Option.map_eq_some_iff.mp heq
    exact ⟨rfl, i, hi, hoperand⟩
  · cases h

/-- Every function is found by its name. -/
theorem functionIndex?_draft (h : Listable p) {n : Nat} {f : Function}
    (hf : p.functions[n]? = some f) :
    (draftUpTo p (p.length + 1)).functionIndex? f.name = some n := by
  rw [← Array.getElem?_toList] at hf
  obtain ⟨hn, hget⟩ := List.getElem?_eq_some_iff.mp hf
  rw [(indexed_draftUpTo h _).functionIndex?_eq, draftUpTo, declarationsUpTo,
    declaredUpTo_length_succ, List.findIdx?_toArray, List.findIdx?_map,
    List.findIdx?_eq_some_iff_getElem]
  refine ⟨hn, ?_, fun j hj hname => ?_⟩
  · rw [hget]
    exact beq_self_eq_true f.name
  · have hnames :=
      List.pairwise_iff_getElem.mp (List.pairwise_map.mp h.nodup) j n
        (Nat.lt_trans hj hn) hn hj
    rw [hget] at hnames
    exact hnames (eq_of_beq hname)

/-- Every label that is named is bound to its position. -/
theorem label?_draft {position : Nat} (hmem : position ∈ labelled p)
    (hle : position ≤ p.length) :
    (draftUpTo p (p.length + 1)).code.label? (labelName position)
      = some position := by
  rw [Code.label?, draftUpTo, lookup_labelsAt, if_pos]
  simp only [List.mem_reverse, List.mem_filter, List.mem_range,
    decide_eq_true_eq]
  exact ⟨Nat.lt_succ_of_le hle, hmem⟩

/-- Settling a call of the draft puts back the operand that the program has
there. -/
theorem resolveCall_draft (h : Listable p) (is : Array Instruction) :
    ∀ ref ∈ (List.range (p.length + 1)).filterMap (callAt? p),
      (draftUpTo p (p.length + 1)).resolveCall is ref
        = .ok (Code.setOperand is ref.1 (operandAt p ref.1)) := by
  intro ref hmem
  obtain ⟨k, -, hk⟩ := List.mem_filterMap.mp hmem
  obtain ⟨rfl, i, hi, hoperand⟩ := callAt?_eq_some hk
  obtain ⟨-, n, f, hn, hf, hname⟩ := writtenOperand_eq_function hoperand
  have hoperandAt : operandAt p ref.1 = i.operand := by
    rw [operandAt, hi]
  unfold Draft.resolveCall
  rw [hname, functionIndex?_draft h hf]
  simp only [positionOperand_index hn, hoperandAt]
  rfl

/-- Settling a jump does, too, whatever the calls have made of the
instructions. -/
theorem resolve_draft (code : Array Instruction) (is : Array Instruction) :
    ∀ ref ∈ (List.range (p.length + 1)).filterMap (jumpAt? p),
      { (draftUpTo p (p.length + 1)).code with instructions := code }.resolve
          is ref
        = .ok (Code.setOperand is ref.1 (operandAt p ref.1)) := by
  intro ref hmem
  obtain ⟨k, -, hk⟩ := List.mem_filterMap.mp hmem
  obtain ⟨rfl, i, hi, hoperand⟩ := jumpAt?_eq_some hk
  obtain ⟨target, htarget, hname⟩ := writtenOperand_eq_label hoperand
  obtain ⟨hindex, hle⟩ := target?_eq_some htarget
  have hmem : target ∈ labelled p :=
    List.mem_append_left _ (List.mem_filterMap.mpr
      ⟨i, Array.mem_toList_iff.mpr (Array.mem_of_getElem? hi), htarget⟩)
  have hlabel :
      { (draftUpTo p (p.length + 1)).code with instructions := code }.label?
        ref.2
      = some target := by
    rw [hname]
    exact label?_draft hmem hle
  have hoperandAt : operandAt p ref.1 = i.operand := by
    rw [operandAt, hi]
  unfold Code.resolve
  rw [hlabel]
  simp only [positionOperand_index hindex, hoperandAt]
  rfl

/-- Every declaration is resolved to the function it was written for. -/
theorem resolveStart_draft {f : Function} (hf : f ∈ p.functions) :
    (draftUpTo p (p.length + 1)).resolveStart
      (declaration (declaredStart p f) f) = .ok f := by
  unfold Draft.resolveStart declaration declaredStart headerStart
  by_cases hinline : declaredInline p
  · rw [if_pos hinline]
  · rw [if_neg hinline]
    by_cases hle : f.entry ≤ p.length
    · have hmem : f.entry ∈ labelled p := by
        unfold labelled
        rw [if_neg hinline]
        refine List.mem_append_right
          _ (List.mem_filter.mpr ⟨?_, decide_eq_true hle⟩)
        exact List.mem_map_of_mem (Array.mem_toList_iff.mpr hf)
      rw [if_pos hle]
      simp only [Start.resolve, label?_draft hmem hle]
    · rw [if_neg hle]
      rfl

/-- With its operand put back, an instruction of the draft is the one it was
written for. -/
theorem draftInstruction_restored {i : Instruction} (hspare : i.spare = 0) :
    { draftInstruction p i with operand := i.operand } = i := by
  obtain ⟨opcode, operand, spare⟩ := i
  obtain rfl : spare = 0 := hspare
  unfold draftInstruction
  cases hwritten : writtenOperand p ⟨opcode, operand, 0⟩ with
  | absent => rfl
  | number n => rfl
  | label name => rfl
  | function name =>
      have hkind := (writtenOperand_eq_function hwritten).1
      cases opcode with
      | call => rfl
      | _ => cases hkind

/-- Without a name in place of its operand, it is that instruction already. -/
theorem draftInstruction_eq_self {i : Instruction} (hspare : i.spare = 0)
    (hunused : i.opcode.operandKind = .unused → i.operand = 0)
    (hlabel : ∀ name, writtenOperand p i ≠ .label name)
    (hfunction : ∀ name, writtenOperand p i ≠ .function name) :
    draftInstruction p i = i := by
  have hrestored := draftInstruction_restored (p := p) hspare
  have hoperand : (draftInstruction p i).operand = i.operand := by
    unfold draftInstruction
    cases hwritten : writtenOperand p i with
    | absent => exact (hunused (writtenOperand_eq_absent hwritten)).symm
    | number n => exact writtenOperand_eq_number hwritten
    | label name => exact absurd hwritten (hlabel name)
    | function name => exact absurd hwritten (hfunction name)
  rw [← hoperand] at hrestored
  exact hrestored

/-- Putting the operands back gives the code of the program. -/
theorem restore_draft (h : Listable p) :
    restore p ((List.range (p.length + 1)).filterMap (jumpAt? p))
      (restore p ((List.range (p.length + 1)).filterMap (callAt? p))
        (draftUpTo p (p.length + 1)).code.instructions) = p.code := by
  refine Array.ext_getElem? fun k => ?_
  -- the draft has all instructions, without the operands that are names
  have hdraft : (draftUpTo p (p.length + 1)).code.instructions[k]?
      = p.code[k]?.map (draftInstruction p) := by
    have htake : p.code.toList.take (p.length + 1) = p.code.toList :=
      List.take_of_length_le (Nat.le_succ _)
    rw [draftUpTo, htake, List.getElem?_toArray, List.getElem?_map,
      Array.getElem?_toList]
  rw [getElem?_restore, getElem?_restore, hdraft]
  cases hi : p.code[k]? with
  | none => simp
  | some i =>
      have hk : k ∈ List.range (p.length + 1) :=
        List.mem_range.mpr
          (Nat.lt_succ_of_lt (Array.getElem?_eq_some_iff.mp hi).1)
      have hmem : ∀ {at? : Nat → Option (Nat × String)} name,
          at? k = some (k, name) →
          k ∈ ((List.range (p.length + 1)).filterMap at?).map (·.1) :=
        fun _ hat =>
        List.mem_map.mpr ⟨_, List.mem_filterMap.mpr ⟨k, hk, hat⟩, rfl⟩
      obtain ⟨hspare, hunused⟩ := h.tidy i (Array.mem_of_getElem? hi)
      have hoperandAt : operandAt p k = i.operand := by
        rw [operandAt, hi]
      have hrestored := draftInstruction_restored (p := p) hspare
      by_cases hjump :
        k ∈ ((List.range (p.length + 1)).filterMap (jumpAt? p)).map (·.1)
      · by_cases hcall :
          k ∈ ((List.range (p.length + 1)).filterMap (callAt? p)).map (·.1)
        · -- the operand is put in twice, and is the same both times
          rw [if_pos hjump, if_pos hcall, hoperandAt]
          exact congrArg some hrestored
        · rw [if_pos hjump, if_neg hcall, hoperandAt]
          exact congrArg some hrestored
      · by_cases hcall :
          k ∈ ((List.range (p.length + 1)).filterMap (callAt? p)).map (·.1)
        · rw [if_neg hjump, if_pos hcall, hoperandAt]
          exact congrArg some hrestored
        · rw [if_neg hjump, if_neg hcall]
          -- without a reference the operand was written as a number
          refine congrArg some (draftInstruction_eq_self hspare hunused ?_ ?_)
          · intro name hname
            refine hjump (hmem name ?_)
            rw [jumpAt?, hi, Option.map_some, hname]
          · intro name hname
            refine hcall (hmem name ?_)
            rw [callAt?, hi, Option.map_some, hname]

/-- A map that takes every element back succeeds. -/
theorem mapM_ok {α β ε : Type} {f : α → Except ε β} {g : β → α} {ys : List β}
    (h : ∀ y ∈ ys, f (g y) = .ok y) : (ys.map g).mapM f = .ok ys := by
  induction ys with
  | nil => rfl
  | cons y ys ih =>
      rw [List.map_cons, List.mapM_cons, h y List.mem_cons_self,
        ih fun z hz => h z (List.mem_cons_of_mem y hz)]
      rfl

/-- The draft of a listing is built into the program. -/
theorem build_draft (h : Listable p) :
    (draftUpTo p (p.length + 1)).build = .ok p := by
  have hcalls : (draftUpTo p (p.length + 1)).calls.foldlM
      (draftUpTo p (p.length + 1)).resolveCall
      (draftUpTo p (p.length + 1)).code.instructions = .ok _ :=
    foldlM_restore (fun is => resolveCall_draft h is) _
  have hfunctions : (draftUpTo p (p.length + 1)).functions.mapM
      (draftUpTo p (p.length + 1)).resolveStart = .ok p.functions := by
    have hdeclared : (draftUpTo p (p.length + 1)).functions
        = (p.functions.toList.map
          fun f => declaration (declaredStart p f) f).toArray := by
      rw [draftUpTo, declarationsUpTo, declaredUpTo_length_succ]
    rw [hdeclared, List.mapM_toArray,
      mapM_ok fun f hf => resolveStart_draft (Array.mem_toList_iff.mp hf)]
    rfl
  have hentry : (draftUpTo p (p.length + 1)).resolveEntry = .ok p.entry := by
    have hget : p.functions[p.entry]? = some p.entryFunction :=
      Array.getElem?_eq_getElem p.entry_lt
    have hname : (draftUpTo p (p.length + 1)).entry
        = some p.entryFunction.name := rfl
    unfold Draft.resolveEntry
    simp only [hname, functionIndex?_draft h hget]
  have hcode : ∀ is,
      { (draftUpTo p (p.length + 1)).code with instructions := is }.finish
      = .ok (restore p ((List.range (p.length + 1)).filterMap (jumpAt? p))
        is) := fun is => foldlM_restore (fun is' => resolve_draft is is') is
  have hnew : Program.new p.constants p.code p.functions p.entry = .ok p := by
    have hsize : p.functions.size ≠ 0 :=
      Nat.ne_of_gt (Nat.zero_lt_of_lt p.entry_lt)
    rw [Program.new, if_neg hsize, dif_pos p.entry_lt]
  have hconstants : (draftUpTo p (p.length + 1)).constants = p.constants := rfl
  unfold Draft.build
  simp only [hcalls, hfunctions, hentry, hcode, Bind.bind, Except.bind,
    restore_draft h, hconstants, hnew]
  rfl

/-- The listing of a program whose parts are read back is read as that
program. -/
theorem assemble_listing (h : Listable p) : assemble (listing p) = .ok p :=
  assemble_of_statements (Text.lines_join h.listingLines.isLine) h.listingLines
    (listingStatements_apply h) (build_draft h)

end StackMachine.Assembly
