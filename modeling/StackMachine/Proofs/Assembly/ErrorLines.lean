/-
The lines that errors name. Lines are carried out one after the other, so an
error that comes up while a text is read belongs to the first line that is
refused. The errors of building come when every line has been carried out, and
are about something stated long before: they name the line of the instruction
that refers to nothing, or of the last choice of an entry. `Placed` says of
every error what it is about and where that stands in the text.

One error of building names no line although a line brought it about: that a
function starts at a label that is defined nowhere. `StartsNowhere` tells
exactly when it is the one reported, and apart from it every error of a text
of moderate size names one of its lines, unless the text has no functions at
all.
-/
import StackMachine.Proofs.Assembly.Complaints
import StackMachine.Proofs.Assembly.Stated

namespace StackMachine

/-- A fold that fails does so at some element, behind others that it gets
through. -/
theorem exists_of_foldlM_error {ε α β : Type} {f : β → α → Except ε β}
    {xs : List α} {b : β} {e : ε} (h : xs.foldlM f b = .error e) :
    ∃ before x after b', xs = before ++ x :: after ∧ before.foldlM f b = .ok b'
      ∧ f b' x = .error e := by
  induction xs generalizing b with
  | nil => cases h
  | cons x xs ih =>
      rw [List.foldlM_cons] at h
      cases hx : f b x with
      | error e' =>
          rw [hx] at h
          cases h
          exact ⟨[], x, xs, b, rfl, rfl, hx⟩
      | ok b₁ =>
          rw [hx] at h
          obtain ⟨before, y, after, b', rfl, hbefore, hy⟩ := ih h
          refine ⟨x :: before, y, after, b', rfl, ?_, hy⟩
          rw [List.foldlM_cons, hx]
          exact hbefore

namespace Assembly

-- ============================================================= vocabulary

/-- Every line is a sequence of statements, and all of them are carried
out. -/
inductive Carried : Draft → List (List Char) → Draft → Prop where
  | nil {d : Draft} : Carried d [] d
  | cons {d d' d'' : Draft} {line : List Char} {lines : List (List Char)}
      {ss : List Statement} (hline : Statement.ofLine line = .ok ss)
      (hss : ss.foldlM Draft.apply d = .ok d')
      (hlines : Carried d' lines d'') :
    Carried d (line :: lines) d''

/-- The lines before this one are carried out, and it is refused on the draft
that they made. -/
def RefusedAt (text : String) (number : Nat)
    (refused : Draft → List Char → Prop) : Prop :=
  ∃ before line after d,
    Text.lines text = before ++ line :: after ∧ number = before.length + 1
    ∧ Carried {} before d ∧ refused d line

/-- All lines are carried out, and what they made cannot be built. -/
def RefusedAtEnd (text : String) (e : BuildError) : Prop :=
  ∃ d, Carried {} (Text.lines text) d ∧ d.build = .error e

/-- What an error is about, and where that stands in the text. -/
def SourceError.Placed (text : String) : SourceError → Prop
  | .line number e =>
    RefusedAt text number fun _ line => Statement.ofLine line = .error e
  | .build number (.undefinedLabel label index) =>
    RefusedAtEnd text (.undefinedLabel label index)
      ∧ label ∉ definedLabels (stated text)
      ∧ ∃ L opcode, number = some L
        ∧ (instructions (stated text))[index]?
          = some (L, .instruction opcode (.label label))
  | .build number (.undefinedFunction name index) =>
    RefusedAtEnd text (.undefinedFunction name index)
      ∧ name ∉ (declarations (stated text)).map (·.1)
      ∧ ∃ L opcode, number = some L
        ∧ (instructions (stated text))[index]?
          = some (L, .instruction opcode (.function name))
  | .build number (.undefinedEntry name) =>
    RefusedAtEnd text (.undefinedEntry name)
      ∧ name ∉ (declarations (stated text)).map (·.1)
      ∧ ∃ L, number = some L
      ∧ (entries (stated text)).getLast? = some (L, name)
  | .build (some number) e =>
    RefusedAt text number fun d line =>
      ∃ ss, Statement.ofLine line = .ok ss ∧ ss.foldlM Draft.apply d = .error e
  | .build none e => RefusedAtEnd text e

/-- All lines are carried out, every function that is called is declared, and
some function starts at a label that is defined nowhere. -/
structure StartsNowhere (text : String) : Prop where
  carried : ∃ d, Carried {} (Text.lines text) d
  called : ∀ number opcode name,
    (number, Statement.instruction opcode (.function name)) ∈ stated text →
      name ∈ (declarations (stated text)).map (·.1)
  start : ∃ name label, (name, some label) ∈ declarations (stated text)
    ∧ label ∉ definedLabels (stated text)

variable {text : String} {e : SourceError} {r r' : Reading}

-- ================================================================= reading

/-- Statements are refused only for defining something twice. -/
theorem Draft.apply_eq_error {d : Draft} {s : Statement} {e : BuildError}
    (h : d.apply s = .error e) :
    (∃ label, e = .duplicateLabel label)
      ∨ ∃ name, e = .duplicateFunction name := by
  cases s with
  | label name =>
      rw [apply, mark, Code.mark] at h
      cases hlabel : d.code.label? name with
      | none =>
          rw [hlabel] at h
          cases h
      | some n =>
          rw [hlabel] at h
          cases h
          exact .inl ⟨name, rfl⟩
  | function name params locals start =>
      change d.declare name params locals start = .error e at h
      unfold declare at h
      split at h
      · cases h
        exact .inr ⟨name, rfl⟩
      · cases h
  | constant v => cases h
  | entry name => cases h
  | instruction opcode operand => cases h

namespace Reading

/-- A line that is carried out is a sequence of statements, each of which the
draft accepts. -/
theorem readLine_eq_ok {line : List Char × Nat}
    (h : r.readLine line = .ok r') :
    ∃ ss, Statement.ofLine line.1 = .ok ss
      ∧ ss.foldlM Draft.apply r.draft = .ok r'.draft := by
  unfold readLine at h
  cases hline : Statement.ofLine line.1 with
  | error e =>
      rw [hline] at h
      cases h
  | ok ss =>
      rw [hline] at h
      have hmap := foldlM_step line.2 r ss
      rw [show ss.foldlM (Reading.step line.2) r = .ok r' from h] at hmap
      cases hss : ss.foldlM Draft.apply r.draft with
      | error e =>
          rw [hss] at hmap
          cases hmap
      | ok d =>
          rw [hss] at hmap
          cases hmap
          exact ⟨ss, rfl, hss⟩

/-- A line is refused for not being a sequence of statements, or for one that
the draft refuses; the error has its number. -/
theorem readLine_eq_error {line : List Char × Nat}
    (h : r.readLine line = .error e) :
    (∃ e', Statement.ofLine line.1 = .error e' ∧ e = .line line.2 e') ∨
      ∃ ss e', Statement.ofLine line.1 = .ok ss
        ∧ ss.foldlM Draft.apply r.draft = .error e'
        ∧ e = .build (some line.2) e' := by
  unfold readLine at h
  cases hline : Statement.ofLine line.1 with
  | error e' =>
      rw [hline] at h
      cases h
      exact .inl ⟨e', rfl, rfl⟩
  | ok ss =>
      rw [hline] at h
      have hmap := foldlM_step line.2 r ss
      rw [show ss.foldlM (Reading.step line.2) r = .error e from h] at hmap
      cases hss : ss.foldlM Draft.apply r.draft with
      | ok d =>
          rw [hss] at hmap
          cases hmap
      | error e' =>
          rw [hss] at hmap
          exact .inr ⟨ss, e', rfl, hss, Except.error.inj hmap⟩

/-- Lines that are read are carried out, whatever their numbers. -/
theorem carried_of_readLines {lines : List (List Char)} {n : Nat}
    (h : r.readLines (lines.zipIdx n) = .ok r') :
    Carried r.draft lines r'.draft := by
  induction lines generalizing r n with
  | nil =>
      cases h
      exact .nil
  | cons line lines ih =>
      rw [List.zipIdx_cons, readLines, List.foldlM_cons] at h
      obtain ⟨r₁, hline, h⟩ := exists_of_bind_ok h
      obtain ⟨ss, hss, hfold⟩ := readLine_eq_ok hline
      exact .cons hss hfold (ih h)

/-- Lines that are carried out are read, whatever their numbers. -/
theorem readLines_of_carried {d d' : Draft} {lines : List (List Char)}
    (h : Carried d lines d') (n : Nat) (hr : r.draft = d) :
    ∃ r', r.readLines (lines.zipIdx n) = .ok r' := by
  induction h generalizing r n with
  | nil => exact ⟨r, rfl⟩
  | @cons d d' d'' line lines ss hline hss _ ih =>
      obtain ⟨r₁, hr₁, hdraft⟩ := foldlM_step_ok n (hr ▸ hss)
      have hread : r.readLine (line, n) = .ok r₁ := by
        rw [readLine, hline]
        exact hr₁
      rw [List.zipIdx_cons, readLines, List.foldlM_cons, hread]
      exact ih (n + 1) hdraft

/-- An error of reading belongs to the first line that is refused. -/
theorem readLines_placed
    (h : readLines {} ((Text.lines text).zipIdx 1) = .error e) :
    e.Placed text := by
  obtain ⟨before, line, after, r, hsplit, hbefore, hline⟩ :=
    exists_of_foldlM_error h
  obtain ⟨lines, rest, hlines, rfl, hrest⟩ :=
    List.zipIdx_eq_append_iff.mp hsplit
  obtain ⟨chars, after', rfl, rfl, -⟩ := List.zipIdx_eq_cons_iff.mp hrest.symm
  have hcarried : Carried {} lines r.draft := carried_of_readLines hbefore
  rcases readLine_eq_error hline
    with ⟨e', hmalformed, rfl⟩ | ⟨ss, e', hss, hfold, rfl⟩
  · exact ⟨lines, chars, after', r.draft, hlines, Nat.add_comm 1 _,
      hcarried, hmalformed⟩
  · have hat : RefusedAt text (1 + lines.length) fun d line =>
        ∃ ss, Statement.ofLine line = .ok ss
          ∧ ss.foldlM Draft.apply d = .error e' :=
      ⟨lines, chars, after', r.draft, hlines, Nat.add_comm 1 _, hcarried,
        ss, hss, hfold⟩
    obtain ⟨-, s, -, d, -, -, hs⟩ := exists_of_foldlM_error hfold
    rcases Draft.apply_eq_error hs with ⟨label, rfl⟩ | ⟨name, rfl⟩
    · exact hat
    · exact hat

-- ================================================================ building

variable {ss : List Stated}

theorem Follows.label?_eq_none_iff (h : r.Follows ss) {label : String} :
    r.draft.code.label? label = none ↔ label ∉ definedLabels ss := by
  rw [Code.label?, List.lookup_eq_none_iff, ← List.mem_reverse,
    ← h.labels, List.mem_map, not_exists]
  simp only [bne_iff_ne, not_and, ne_comm]

theorem Follows.functionIndex?_eq_none_iff (h : r.Follows ss) {name : String} :
    r.draft.functionIndex? name = none
      ↔ name ∉ (declarations ss).map (·.1) := by
  rw [h.indexed.functionIndex?_eq_none_iff, ← h.functions, List.map_map]
  rfl

/-- The line noted for an instruction is the line that stated it. -/
theorem Follows.lineOf_instruction (h : r.Follows ss) {index number : Nat}
    {s : Statement} (hs : (instructions ss)[index]? = some (number, s)) :
    r.instructionLines[index]? = some number := by
  rw [← Array.getElem?_toList, h.lines, List.getElem?_map, hs]
  rfl

/-- The chosen entry is the one that the last choice stated, and its
line was noted. -/
theorem Follows.entry_eq (h : r.Follows ss) {name : String}
    (hname : r.draft.entry = some name) :
    ∃ number, r.entryLine = some number
      ∧ (entries ss).getLast? = some (number, name) := by
  rw [h.entry] at hname
  obtain ⟨⟨number, n⟩, hlast, rfl⟩ := Option.map_eq_some_iff.mp hname
  refine ⟨number, ?_, hlast⟩
  rw [h.entryLine, hlast]
  rfl

/-- What is refused at the end is refused by the building, with the line that
was noted for it. -/
theorem finish_eq_error (h : r.finish = .error e) :
    ∃ e', r.draft.build = .error e' ∧ e = .build (r.lineOf e') e' := by
  unfold finish at h
  split at h
  · cases h
  · next e' hbuild =>
    cases h
    exact ⟨e', hbuild, rfl⟩

/-- An error of building is placed by the line that was noted for it. -/
theorem finish_placed (hr : readLines {} ((Text.lines text).zipIdx 1) = .ok r)
    (h : r.finish = .error e) : e.Placed text := by
  obtain ⟨e', hbuild, rfl⟩ := finish_eq_error h
  have hfollows := readLines_follows hr
  have hend : RefusedAtEnd text e' :=
    ⟨r.draft, carried_of_readLines hr, hbuild⟩
  -- what is reported is true of the draft, and the draft follows the text
  have hcomplains := Draft.complains_of_build hfollows.indexed hbuild
  cases e' with
  | undefinedLabel label index =>
      obtain ⟨hmem, hnone⟩ := hcomplains
      rw [hfollows.jumps, mem_references] at hmem
      obtain ⟨number, opcode, operand, hat, hlabel⟩ := hmem
      obtain rfl := Operand.eq_label hlabel
      exact ⟨hend, hfollows.label?_eq_none_iff.mp hnone, number, opcode,
        hfollows.lineOf_instruction hat, hat⟩
  | undefinedFunction name index =>
      obtain ⟨hmem, hnone⟩ := hcomplains
      rw [hfollows.calls, mem_references] at hmem
      obtain ⟨number, opcode, operand, hat, hname⟩ := hmem
      obtain rfl := Operand.eq_function hname
      exact ⟨hend, hfollows.functionIndex?_eq_none_iff.mp hnone,
        number, opcode, hfollows.lineOf_instruction hat, hat⟩
  | undefinedEntry name =>
      obtain ⟨hname, hnone⟩ := hcomplains
      obtain ⟨number, hline, hlast⟩ := hfollows.entry_eq hname
      exact ⟨hend, hfollows.functionIndex?_eq_none_iff.mp hnone,
        number, hline, hlast⟩
  | duplicateLabel label => exact hcomplains.elim
  | duplicateFunction name => exact hcomplains.elim
  | undefinedEntryLabel name label => exact hend
  | operandOverflow position => exact hend
  | program error => exact hend

/-- An error of reading names a line. -/
theorem line_of_readLines {lines : List (List Char × Nat)}
    (h : r.readLines lines = .error e) :
    ∃ number, e.lineNumber? = some number := by
  obtain ⟨-, line, -, r, -, -, hline⟩ := exists_of_foldlM_error h
  rcases readLine_eq_error hline with ⟨e', -, rfl⟩ | ⟨ss, e', -, -, rfl⟩
  · exact ⟨line.2, rfl⟩
  · exact ⟨line.2, rfl⟩

end Reading

/-- A text is refused while its lines are read or when they are done. -/
theorem assemble_error (h : assemble text = .error e) :
    Reading.readLines {} ((Text.lines text).zipIdx 1) = .error e ∨
      ∃ r, Reading.readLines {} ((Text.lines text).zipIdx 1) = .ok r
        ∧ r.finish = .error e := by
  unfold assemble at h
  cases hr : Reading.readLines {} ((Text.lines text).zipIdx 1) with
  | error e' =>
      rw [hr] at h
      cases h
      exact .inl rfl
  | ok r =>
      rw [hr] at h
      exact .inr ⟨r, rfl, h⟩

/-- What an error says about a text is right, and so is the line that it
names. An error of reading names the first line that is not carried out; an
undefined label or function the line of the instruction that refers to it,
which has the number given and that operand; and an undefined entry the line
of the last choice of one. -/
theorem assemble_error_placed (h : assemble text = .error e) :
    e.Placed text := by
  rcases assemble_error h with hread | ⟨r, hread, hfinish⟩
  · exact Reading.readLines_placed hread
  · exact Reading.finish_placed hread hfinish

/-- Instruction 1 stands at line 6, behind a comment, a label and a
directive. -/
def straying : String :=
  "; jumps away\n.func main 0 0\n\nstart: NOP ; instruction 0\n"
    ++ ".const int 1\nend: JUMP nowhere\n"

/-- The error names line 6, where the second instruction names a label that is
defined nowhere. -/
theorem straying_placed :
    assemble straying
        = .error (.build (some 6) (.undefinedLabel "nowhere" 1)) ∧
      ∃ opcode, (instructions (stated straying))[1]?
        = some (6, .instruction opcode (.label "nowhere")) := by
  have h : assemble straying
      = .error (.build (some 6) (.undefinedLabel "nowhere" 1)) := by
    decide +kernel
  obtain ⟨-, -, number, opcode, hnumber, hat⟩ := assemble_error_placed h
  obtain rfl := Option.some.inj hnumber
  exact ⟨h, opcode, hat⟩

-- ============================================================ lines named

/-- Every statement has the number of one of the lines. -/
theorem line_of_mem_stated {number : Nat} {s : Statement}
    (h : (number, s) ∈ stated text) :
    1 ≤ number ∧ number ≤ (Text.lines text).length := by
  obtain ⟨line, ls, hmem, -, -⟩ := mem_stated.mp h
  obtain ⟨hle, hlt, -⟩ := List.mem_zipIdx hmem
  exact ⟨hle, by omega⟩

/-- A line that is refused is one of the lines. -/
theorem RefusedAt.line {number : Nat} {refused : Draft → List Char → Prop}
    (h : RefusedAt text number refused) :
    1 ≤ number ∧ number ≤ (Text.lines text).length := by
  obtain ⟨before, line, after, d, hsplit, rfl, -, -⟩ := h
  rw [hsplit, List.length_append, List.length_cons]
  omega

/-- A line that is named is one of the text. -/
theorem SourceError.Placed.line {number : Nat} (h : e.Placed text)
    (hnumber : e.lineNumber? = some number) :
    1 ≤ number ∧ number ≤ (Text.lines text).length := by
  have hinstruction : ∀ {index : Nat} {s : Statement},
      (instructions (stated text))[index]? = some (number, s) →
        1 ≤ number ∧ number ≤ (Text.lines text).length := fun hat =>
    line_of_mem_stated (List.mem_filter.mp (List.mem_of_getElem? hat)).1
  cases e with
  | line n e =>
      cases hnumber
      exact h.line
  | build n e =>
      obtain rfl : n = some number := hnumber
      cases e with
      | undefinedLabel label index =>
          obtain ⟨-, -, L, opcode, hL, hat⟩ := h
          obtain rfl := Option.some.inj hL
          exact hinstruction hat
      | undefinedFunction name index =>
          obtain ⟨-, -, L, opcode, hL, hat⟩ := h
          obtain rfl := Option.some.inj hL
          exact hinstruction hat
      | undefinedEntry name =>
          obtain ⟨-, -, L, hL, hlast⟩ := h
          obtain rfl := Option.some.inj hL
          exact line_of_mem_stated
            (mem_entries.mp (List.mem_of_getLast? hlast))
      | _ => exact RefusedAt.line h

namespace Reading

theorem Follows.functionIndex?_lt (h : r.Follows ss) {name : String} {n : Nat}
    (hn : r.draft.functionIndex? name = some n) :
    n < (declarations ss).length := by
  rw [← h.functions, List.length_map, Array.length_toList]
  exact h.indexed.functionIndex?_lt hn

/-- Nothing is wrong with the calls exactly if every function that is called
is declared. -/
theorem Follows.callComplaints_eq_nil_iff (h : r.Follows ss)
    (hfunctions : (declarations ss).length < 0x80000000) :
    r.draft.callComplaints = [] ↔ ∀ number opcode name,
      (number, Statement.instruction opcode (.function name)) ∈ ss →
        name ∈ (declarations ss).map (·.1) := by
  rw [Draft.callComplaints, List.filterMap_eq_nil_iff, h.calls]
  constructor
  · intro hsettled number opcode name hmem
    have hcall : Operand.function? (.function name) = some name := rfl
    obtain ⟨k, hk⟩ :=
      exists_mem_references.mpr ⟨number, opcode, _, hmem, hcall⟩
    obtain ⟨n, hn, -⟩ := unsettled?_eq_none_iff.mp (hsettled _ hk)
    by_contra hname
    rw [h.functionIndex?_eq_none_iff.mpr hname] at hn
    cases hn
  · rintro hdeclared ⟨k, name⟩ hk
    obtain ⟨number, opcode, operand, hmem, hname⟩ :=
      exists_mem_references.mp ⟨k, hk⟩
    obtain rfl := Operand.eq_function hname
    have hindex : r.draft.functionIndex? name ≠ none := fun hnone =>
      h.functionIndex?_eq_none_iff.mp hnone (hdeclared number opcode name hmem)
    obtain ⟨n, hn⟩ := Option.ne_none_iff_exists'.mp hindex
    exact unsettled?_eq_none_iff.mpr
      ⟨n, hn, Nat.lt_trans (h.functionIndex?_lt hn) hfunctions⟩

/-- Nothing is wrong with the starts exactly if every label that a function
starts at is defined. -/
theorem Follows.startComplaints_eq_nil_iff (h : r.Follows ss) :
    r.draft.startComplaints = []
      ↔ ∀ name label, (name, some label) ∈ declarations ss →
      label ∈ definedLabels ss := by
  rw [Draft.startComplaints, List.filterMap_eq_nil_iff, ← h.functions]
  constructor
  · intro hbound name label hmem
    obtain ⟨f, hf, heq⟩ := List.mem_map.mp hmem
    obtain ⟨rfl, hlabel⟩ := Prod.mk.inj heq
    by_contra hdefined
    have hcomplaint := Draft.startComplaint?_eq_some_iff.mpr
      ⟨label, Sum.getRight?_eq_some_iff.mp hlabel,
        h.label?_eq_none_iff.mpr hdefined, rfl⟩
    rw [hbound f hf] at hcomplaint
    cases hcomplaint
  · intro hdefined f hf
    rw [Option.eq_none_iff_forall_ne_some]
    intro e hcomplaint
    obtain ⟨label, hlabel, hnone, -⟩ :=
      Draft.startComplaint?_eq_some_iff.mp hcomplaint
    refine h.label?_eq_none_iff.mp hnone
      (hdefined f.name label (List.mem_map.mpr ⟨f, hf, ?_⟩))
    rw [hlabel]
    rfl

/-- Of what was read to the end, that a function starts nowhere is what
building reports. -/
theorem startsNowhere_iff
    (hr : readLines {} ((Text.lines text).zipIdx 1) = .ok r)
    (hfunctions : (declarations (stated text)).length < 0x80000000)
    {e : BuildError} (h : r.draft.build = .error e) :
    StartsNowhere text
      ↔ ∃ name label, e = .undefinedEntryLabel name label := by
  have hfollows := readLines_follows hr
  rw [Draft.undefinedEntryLabel_iff hfollows.indexed h,
    hfollows.callComplaints_eq_nil_iff hfunctions, ne_eq,
    hfollows.startComplaints_eq_nil_iff]
  constructor
  · rintro ⟨-, hcalled, name, label, hmem, hdefined⟩
    exact ⟨hcalled, fun hall => hdefined (hall name label hmem)⟩
  · rintro ⟨hcalled, hstart⟩
    refine ⟨⟨r.draft, carried_of_readLines hr⟩, hcalled, ?_⟩
    push Not at hstart
    exact hstart

/-- Where every position fits an operand, the error has a line unless it is
about a start or about the table. -/
theorem lineOf_eq_none_iff
    (hr : readLines {} ((Text.lines text).zipIdx 1) = .ok r)
    (hinstructions : (instructions (stated text)).length < 0x80000000)
    (hfunctions : (declarations (stated text)).length < 0x80000000)
    {e : BuildError} (h : r.draft.build = .error e)
    (htable : e ≠ .program .noFunctions) :
    r.lineOf e = none ↔ ∃ name label, e = .undefinedEntryLabel name label := by
  have hfollows := readLines_follows hr
  have hcomplains := Draft.complains_of_build hfollows.indexed h
  have hplaced : SourceError.Placed text (.build (r.lineOf e) e) := by
    refine finish_placed hr ?_
    rw [finish, h]
  cases e with
  | undefinedEntryLabel name label =>
      exact ⟨fun _ => ⟨name, label, rfl⟩, fun _ => rfl⟩
  | undefinedLabel label index =>
      obtain ⟨-, -, L, -, hL, -⟩ := hplaced
      simp [hL]
  | undefinedFunction name index =>
      obtain ⟨-, -, L, -, hL, -⟩ := hplaced
      simp [hL]
  | undefinedEntry name =>
      obtain ⟨-, -, L, hL, -⟩ := hplaced
      simp [hL]
  | operandOverflow position =>
      -- a function or a label past 2³¹ would need as many declarations or
      -- instructions
      obtain ⟨hlarge, name, hindex | hlabel⟩ := hcomplains
      · have hlt := hfollows.functionIndex?_lt hindex
        omega
      · have hle := (readLines_sound hr).label_le hlabel
        have hsize : r.draft.code.position = _ := hfollows.size
        omega
  | duplicateLabel label => exact hcomplains.elim
  | duplicateFunction name => exact hcomplains.elim
  | program error =>
      obtain rfl := hcomplains
      exact absurd rfl htable

end Reading

/-- In every text with less than 2³¹ instructions and functions, an error
other than that of an empty function table names one of the lines of the text
exactly if no function starts nowhere. -/
theorem error_line_iff
    (hinstructions : (instructions (stated text)).length < 0x80000000)
    (hfunctions : (declarations (stated text)).length < 0x80000000)
    (h : assemble text = .error e)
    (htable : e ≠ .build none (.program .noFunctions)) :
    (∃ number, e.lineNumber? = some number
        ∧ 1 ≤ number ∧ number ≤ (Text.lines text).length)
      ↔ ¬StartsNowhere text := by
  rcases assemble_error h with hread | ⟨r, hread, hfinish⟩
  · obtain ⟨number, hnumber⟩ := Reading.line_of_readLines hread
    have hline := (Reading.readLines_placed hread).line hnumber
    -- a text with such a function is read to its end
    refine iff_of_true ⟨number, hnumber, hline⟩ fun hstarts => ?_
    obtain ⟨d, hd⟩ := hstarts.carried
    obtain ⟨r, hr⟩ :=
      Reading.readLines_of_carried hd 1 (show Reading.draft {} = {} from rfl)
    rw [hread] at hr
    cases hr
  · have hplaced := Reading.finish_placed hread hfinish
    obtain ⟨e', hbuild, rfl⟩ := Reading.finish_eq_error hfinish
    have htable' : e' ≠ .program .noFunctions := by
      rintro rfl
      exact htable rfl
    rw [Reading.startsNowhere_iff hread hfunctions hbuild,
      ← Reading.lineOf_eq_none_iff hread hinstructions hfunctions hbuild
        htable']
    constructor
    · rintro ⟨number, hnumber, -⟩ hnone
      rw [show r.lineOf e' = some number from hnumber] at hnone
      cases hnone
    · intro hsome
      obtain ⟨number, hnumber⟩ := Option.ne_none_iff_exists'.mp hsome
      exact ⟨number, hnumber, hplaced.line hnumber⟩

/-- A function that starts at a label of nowhere. -/
def uprooted : String := ".func main 0 0 nowhere\nHALT\n"

/-- The text is refused at the end, with no line. -/
theorem assemble_uprooted :
    assemble uprooted
      = .error (.build none (.undefinedEntryLabel "main" "nowhere")) := by
  decide +kernel

/-- It is far from the bounds on instructions and functions. -/
theorem uprooted_small :
    (instructions (stated uprooted)).length < 0x80000000 ∧
      (declarations (stated uprooted)).length < 0x80000000 := by
  decide +kernel

/-- Its function starts at a label that no line defines. -/
theorem uprooted_startsNowhere : StartsNowhere uprooted := by
  obtain ⟨hinstructions, hfunctions⟩ := uprooted_small
  by_contra hstarts
  obtain ⟨number, hnumber, -⟩ :=
    (error_line_iff hinstructions hfunctions assemble_uprooted (by decide)).mpr
      hstarts
  cases hnumber

/-- The error names no line, although the first line brought it about. -/
theorem uprooted_without_line :
    (instructions (stated uprooted)).length < 0x80000000 ∧
      (declarations (stated uprooted)).length < 0x80000000 ∧
      ∃ e, assemble uprooted = .error e
        ∧ e ≠ .build none (.program .noFunctions)
        ∧ e.lineNumber? = none :=
  ⟨uprooted_small.1, uprooted_small.2, _, assemble_uprooted, by decide, rfl⟩

end Assembly

end StackMachine
