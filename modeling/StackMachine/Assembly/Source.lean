/-
Assembly text to programs. Lines are taken in order, and the first that is no
sequence of statements, or whose statements cannot be carried out, refuses
the text with its number. What can only be told at the end is reported at the
line of the instruction that needed it, or of the last choice of an entry.
-/
import StackMachine.Assembly.Draft
import StackMachine.Assembly.Statement

namespace StackMachine.Assembly

/-- Why a text is no program. -/
inductive SourceError where
  /-- A line is no sequence of statements. -/
  | line (number : Nat) (error : LineError)
  /-- The statements do not make a program; the line is known unless the
  error concerns none. -/
  | build (number : Option Nat) (error : BuildError)
  deriving DecidableEq

namespace SourceError

/-- The line that an error is about. -/
def lineNumber? : SourceError → Option Nat
  | line number _ => some number
  | build number _ => number

/-- The wording of a source error. -/
def message : SourceError → String
  | line number error => s!"line {number}: " ++ error.message
  | build (some number) error => s!"line {number}: " ++ error.message
  | build none error => error.message

end SourceError

/-- A text read up to some line. -/
structure Reading where
  draft : Draft := {}
  /-- The line of each instruction. -/
  instructionLines : Array Nat := #[]
  /-- The line of the last choice of an entry. -/
  entryLine : Option Nat := none

/-- Carries a statement out on a program under construction. -/
def Draft.apply (d : Draft) : Statement → Except BuildError Draft
  | .label name => d.mark name
  | .constant value => .ok (d.constant value)
  | .function name params locals start => d.declare name params locals start
  | .entry name => .ok (d.setEntry name)
  | .instruction opcode operand =>
    .ok <|
      match operand with
      | .absent => d.emit { opcode }
      | .number n => d.emit { opcode, operand := n }
      | .label name => d.emitJump opcode name
      | .function name => d.emitCall name

namespace Reading

/-- Notes the line of a statement that a later error may have to name. -/
def note (r : Reading) (number : Nat) : Statement → Reading
  | .instruction .. =>
    { r with instructionLines := r.instructionLines.push number }
  | .entry _ => { r with entryLine := some number }
  | _ => r

/-- Carries out one statement of a line. -/
def step (number : Nat) (r : Reading)
    (s : Statement) : Except SourceError Reading :=
  let r := r.note number s
  match r.draft.apply s with
  | .ok draft => .ok { r with draft }
  | .error e => .error (.build (some number) e)

/-- Noting a line changes nothing about the program. -/
@[simp] theorem draft_note (r : Reading) (number : Nat) (s : Statement) :
    (r.note number s).draft = r.draft := by
  cases s <;> rfl

/-- A statement is carried out on the draft, or refuses the text with the
number of its line. -/
theorem step_eq (number : Nat) (r : Reading) (s : Statement) :
    r.step number s = match r.draft.apply s with
      | .ok draft => .ok { r.note number s with draft }
      | .error e => .error (.build (some number) e) := by
  simp only [step, draft_note]

/-- Reads one line. -/
def readLine (r : Reading)
    (line : List Char × Nat) : Except SourceError Reading :=
  match Statement.ofLine line.1 with
  | .error e => .error (.line line.2 e)
  | .ok statements => statements.foldlM (step line.2) r

/-- Reads the lines in order. -/
def readLines (r : Reading)
    (lines : List (List Char × Nat)) : Except SourceError Reading :=
  lines.foldlM readLine r

/-- The line of an error that was found at the end. -/
def lineOf (r : Reading) : BuildError → Option Nat
  | .undefinedLabel _ index => r.instructionLines[index]?
  | .undefinedFunction _ index => r.instructionLines[index]?
  | .undefinedEntry _ => r.entryLine
  | _ => none

/-- The program of the lines read. -/
def finish (r : Reading) : Except SourceError Program :=
  match r.draft.build with
  | .ok p => .ok p
  | .error e => .error (.build (r.lineOf e) e)

end Reading

/-- The program of an assembly text. Lines are numbered from one. -/
def assemble (text : String) : Except SourceError Program := do
  let r ← Reading.readLines {} ((Text.lines text).zipIdx 1)
  r.finish

end StackMachine.Assembly
