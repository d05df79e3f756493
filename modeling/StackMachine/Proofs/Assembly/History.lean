/-
Histories of programs under construction. A history is any sequence of
requests; each part of what the draft holds after it can be told from the
history alone (`after_eq`): what was asked of the code, the constants, the
functions by their first declarations, the calls with their positions, and
the entry that was chosen last. The map of names needs no view of its own: it
agrees with the functions after every request (`Indexed.serve`) and so after
every history (`indexed_after`).

Some parts depend on what came before a request: where a call stands, which
constant a push loads, whether a name was declared already. Such parts are
collected request by request, each with the history before it (`collect`), so
that one more request adds at most one thing at the end.
-/
import StackMachine.Proofs.Assembly.Labels
import StackMachine.Proofs.Assembly.Rebuild

namespace StackMachine.Assembly

-- ============================================================== collecting

section Collect

variable {α β : Type}

/-- What the requests of a history amount to, each seen after the ones before
it. -/
def collect (view : List α → α → Option β) (rs : List α) : List β :=
  rs.zipIdx.filterMap fun r => view (rs.take r.2) r.1

variable {view : List α → α → Option β} {rs : List α}

/-- The last request is seen after all others. -/
@[simp] theorem collect_append_singleton (r : α) :
    collect view (rs ++ [r]) = collect view rs ++ (view rs r).toList := by
  have hbefore : ∀ x ∈ rs.zipIdx,
      view ((rs ++ [r]).take x.2) x.1 = view (rs.take x.2) x.1 := by
    intro x hx
    have hget : rs[x.2]? = some x.1 := List.mem_zipIdx_iff_getElem?.mp hx
    have hlt : x.2 < rs.length := (List.getElem?_eq_some_iff.mp hget).1
    rw [List.take_append_of_le_length (Nat.le_of_lt hlt)]
  rw [collect, List.zipIdx_append, List.filterMap_append,
    List.filterMap_congr hbefore]
  simp [collect, filterMap_cons_eq]

/-- What is collected was seen in some request, after the ones before it. -/
theorem mem_collect {b : β} :
    b ∈ collect view rs
      ↔ ∃ (k : Nat) (r : α),
        rs[k]? = some r ∧ view (rs.take k) r = some b := by
  rw [collect, List.mem_filterMap]
  constructor
  · rintro ⟨⟨r, k⟩, hmem, hview⟩
    exact ⟨k, r, List.mem_zipIdx_iff_getElem?.mp hmem, hview⟩
  · rintro ⟨k, r, hr, hview⟩
    exact ⟨(r, k), List.mem_zipIdx_iff_getElem?.mpr hr, hview⟩

end Collect

namespace Draft

-- =============================================================== histories

/-- What a program under construction may be asked for. -/
inductive Request where
  /-- A request to its code. -/
  | code (r : Code.Request)
  | constant (v : Value)
  /-- A constant with an instruction that pushes it. -/
  | pushConstant (v : Value)
  | call (name : String)
  | declare (name : String) (params locals : Nat) (start : Start)
  | setEntry (name : String)
  deriving DecidableEq

/-- What a request leaves. One that is refused changes nothing, except that a
constant to be pushed is appended before its index is found too large. -/
def serve (d : Draft) : Request → Draft
  | .code (.append (.whole i)) => d.emit i
  | .code (.append (.jump opcode label)) => d.emitJump opcode label
  | .code (.mark label) =>
    match d.mark label with
    | .ok d' => d'
    | .error _ => d
  | .constant v => d.constant v
  | .pushConstant v =>
    match d.pushConstant v with
    | .ok d' => d'
    | .error _ => d.constant v
  | .call name => d.emitCall name
  | .declare name params locals start =>
    match d.declare name params locals start with
    | .ok d' => d'
    | .error _ => d
  | .setEntry name => d.setEntry name

/-- The draft after a history. -/
def after (rs : List Request) : Draft := rs.foldl serve {}

/-- A history with one more request is that history, and then the request. -/
theorem after_append_singleton (rs : List Request) (r : Request) :
    after (rs ++ [r]) = (after rs).serve r := by
  rw [after, after, List.foldl_append, List.foldl_cons, List.foldl_nil]

/-- A request to the code leaves everything else. -/
theorem serve_code (d : Draft) (r : Code.Request) :
    d.serve (.code r) = { d with code := d.code.serve r } := by
  match r with
  | .append (.whole i) => rfl
  | .append (.jump opcode label) => rfl
  | .mark label =>
      rw [serve, mark, Code.serve]
      cases d.code.mark label <;> rfl

/-- A request keeps the map of names and the table of functions in
agreement. -/
theorem Indexed.serve {d : Draft} (h : d.Indexed) (r : Request) :
    (d.serve r).Indexed := by
  cases r with
  | code r =>
      rw [serve_code]
      exact h.of_eq rfl rfl
  | constant v => exact h.of_eq rfl rfl
  | pushConstant v =>
      rw [Draft.serve, Draft.pushConstant]
      cases positionOperand d.constants.size <;> exact h.of_eq rfl rfl
  | call name => exact h.of_eq rfl rfl
  | declare name params locals start =>
      rw [Draft.serve]
      cases hd : d.declare name params locals start with
      | ok d' => exact h.declare hd
      | error e => exact h
  | setEntry name => exact h.of_eq rfl rfl

/-- After any history the map of names agrees with the table of functions. -/
theorem indexed_after (rs : List Request) : (after rs).Indexed := by
  induction rs using List.reverseRecOn with
  | nil => exact indexed_empty
  | append_singleton rs r ih =>
      rw [after_append_singleton]
      exact ih.serve r

end Draft

namespace History

open Draft

-- ================================================================== views

/-- The constants that a history appends. -/
def constants (rs : List Request) : List Value :=
  rs.filterMap fun
    | .constant v => some v
    | .pushConstant v => some v
    | _ => none

/-- What a request asks of the code. A push loads the constant behind those
before it, and the operand of a call is open. -/
def codeRequest? (before : List Request) : Request → Option Code.Request
  | .code r => some r
  | .pushConstant _ =>
    some (.append (.whole
      { opcode := .pushConst,
        operand := Int32.ofNat (constants before).length }))
  | .call _ => some (.append (.whole { opcode := .call }))
  | _ => none

/-- What a history asks of the code. -/
def codeRequests (rs : List Request) : List Code.Request :=
  collect codeRequest? rs

/-- The number of instructions that a history appends. -/
def position (rs : List Request) : Nat :=
  (Code.appended (codeRequests rs)).length

/-- A call by name, with its position. -/
def call? (before : List Request) : Request → Option (Nat × String)
  | .call name => some (position before, name)
  | _ => none

/-- The calls by name that a history appends. -/
def calls (rs : List Request) : List (Nat × String) := collect call? rs

/-- The names that a history asks to declare. -/
def names (rs : List Request) : List String :=
  rs.filterMap fun
    | .declare name .. => some name
    | _ => none

/-- The declaration of a function, unless its name was declared before. -/
def declaration? (before : List Request) : Request → Option Declaration
  | .declare name params locals start =>
    if name ∈ names before then none
    else some
      { name, start := start.resolve (position before), params, locals }
  | _ => none

/-- The functions that a history declares, each where its name first
occurs. -/
def declared (rs : List Request) : List Declaration := collect declaration? rs

/-- The entry that a history chooses: the last choice counts. -/
def selected (rs : List Request) : Option String :=
  (rs.filterMap fun
    | .setEntry name => some name
    | _ => none).getLast?

-- ============================================================ closed form

variable {rs : List Request}

section Steps

variable (rs : List Request) (r : Request)

/-- Each request adds its own constants. -/
theorem constants_append_singleton :
    constants (rs ++ [r]) = constants rs ++ constants [r] :=
  List.filterMap_append

theorem names_append_singleton : names (rs ++ [r]) = names rs ++ names [r] :=
  List.filterMap_append

/-- A later choice of an entry replaces the ones before it. -/
theorem selected_append_singleton :
    selected (rs ++ [r]) = match r with
      | .setEntry name => some name
      | _ => selected rs := by
  rw [selected, List.filterMap_append]
  cases r with
  | setEntry name => simp
  | _ => simp [selected]

/-- What the code is asked for last is what the last request asks of it, at
the place that those before it leave. -/
theorem codeRequests_append_singleton :
    codeRequests (rs ++ [r]) = codeRequests rs ++ (codeRequest? rs r).toList :=
  collect_append_singleton r

theorem calls_append_singleton :
    calls (rs ++ [r]) = calls rs ++ (call? rs r).toList :=
      collect_append_singleton r

/-- A declaration at the end declares a function only if its name is new. -/
theorem declared_append_singleton :
    declared (rs ++ [r]) = declared rs ++ (declaration? rs r).toList :=
      collect_append_singleton r

end Steps

/-- The declared names are those that were asked for. -/
theorem mem_map_name_declared {name : String} :
    name ∈ (declared rs).map (·.name) ↔ name ∈ names rs := by
  induction rs using List.reverseRecOn with
  | nil => rfl
  | append_singleton rs r ih =>
      rw [declared_append_singleton, names_append_singleton, List.map_append,
        List.mem_append, List.mem_append, ih]
      cases r with
      | declare n params locals start =>
          have hname : names [.declare n params locals start] = [n] := rfl
          by_cases hn : n ∈ names rs
          · rw [declaration?, if_pos hn, hname]
            simp only [Option.toList_none, List.map_nil,
              List.not_mem_nil, or_false, List.mem_singleton, iff_self_or]
            rintro rfl
            exact hn
          · rw [declaration?, if_neg hn, hname]
            rfl
      | _ => rfl

/-- No two functions have one name. -/
theorem nodup_declared (rs : List Request) :
    ((declared rs).map (·.name)).Nodup := by
  induction rs using List.reverseRecOn with
  | nil => exact List.nodup_nil
  | append_singleton rs r ih =>
      rw [declared_append_singleton, List.map_append]
      cases r with
      | declare n params locals start =>
          by_cases hn : n ∈ names rs
          · rw [declaration?, if_pos hn]
            simpa using ih
          · rw [declaration?, if_neg hn]
            refine List.nodup_append.mpr ⟨ih, List.pairwise_singleton _ _, ?_⟩
            intro a ha b hb
            obtain rfl : b = n := by simpa using hb
            rintro rfl
            exact hn (mem_map_name_declared.mp ha)
      | _ => simpa [declaration?] using ih

/-- What the draft holds after a history that does not run out of
constants. -/
theorem after_eq (hfit : (constants rs).length ≤ 0x80000000) :
    Draft.after rs =
      { code := Code.after (codeRequests rs)
        constants := (constants rs).toArray
        functions := (declared rs).toArray
        names := namesOf (declared rs)
        calls := (calls rs).toArray
        entry := selected rs } := by
  induction rs using List.reverseRecOn with
  | nil => rfl
  | append_singleton rs r ih =>
      have hconstants := constants_append_singleton rs r
      rw [hconstants, List.length_append] at hfit
      have ih := ih (by omega)
      have hindexed := indexed_after rs
      rw [ih] at hindexed
      have hposition : (Code.after (codeRequests rs)).position = position rs :=
        Code.position_after _
      rw [Draft.after_append_singleton, ih, hconstants,
        codeRequests_append_singleton, calls_append_singleton,
        declared_append_singleton, selected_append_singleton]
      cases r with
      | code r =>
          simp [serve_code, codeRequest?, Code.after_append_singleton,
            call?, declaration?, show constants [.code r] = [] from rfl]
      | constant v =>
          simp [serve, Draft.constant, codeRequest?, call?, declaration?,
            show constants [.constant v] = [v] from rfl]
      | pushConstant v =>
          have hv : constants [.pushConstant v] = [v] := rfl
          -- the constant that is pushed counts among those that fit, so the
          -- ones before it are fewer
          have hindex : (constants rs).length < 0x80000000 := by
            rw [hv, List.length_singleton] at hfit
            exact hfit
          have hoperand : positionOperand (constants rs).length
              = .ok (Int32.ofNat (constants rs).length) := if_pos hindex
          simp [serve, pushConstant, hoperand, Draft.constant,
            emit, codeRequest?, Code.after_append_singleton, Code.serve, call?,
            declaration?, hv]
      | call name =>
          simp [serve, emitCall, hposition, codeRequest?,
            Code.after_append_singleton, Code.serve, call?, declaration?,
            show constants [.call name] = [] from rfl]
      | declare name params locals start =>
          have hv : constants [.declare name params locals start] = [] := rfl
          rw [serve, hindexed.declare_eq]
          simp only [mem_map_name_declared, hposition, declaration?]
          by_cases hname : name ∈ names rs
          · simp [hname, codeRequest?, call?, hv]
          · simp [hname, codeRequest?, call?, hv, namesOf_concat]
      | setEntry name =>
          simp [serve, setEntry, codeRequest?, call?, declaration?,
            show constants [.setEntry name] = [] from rfl]

end History

end StackMachine.Assembly
