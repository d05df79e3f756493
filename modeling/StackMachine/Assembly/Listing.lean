/-
Programs as assembly text. Constants come first, then the entry, then the
code with a label at every position that something refers to. When the
functions are in the order of their entries they are declared inside the
code, where they start; otherwise all of them are declared at the top, each
with its start. Operands that refer to nothing are written as plain numbers,
so reading the text gives the program back.
-/
import StackMachine.Program
import StackMachine.Text.Quoted
import Std.Data.TreeSet

namespace StackMachine.Assembly

/-- Whether each entry is at most the next. -/
def ascending : List Nat → Bool
  | a :: b :: rest => a ≤ b && ascending (b :: rest)
  | _ => true

/-- The label of a position. -/
def labelName (position : Nat) : String := "L" ++ toString position

/-- A constant as a directive writes it. -/
def constantText (v : Value) : String :=
  match v with
  | .null => "null"
  | .string s => "string " ++ Text.escape s
  | v => v.kind.name ++ " " ++ v.toText

/-- A function as a directive declares it, without a start. -/
def functionText (f : Function) : String :=
  ".func " ++ f.name ++ " " ++ toString f.params ++ " " ++ toString f.locals

/-- The instruction an operand refers to, when it lies in the code or
right behind it. -/
def target? (p : Program) (i : Instruction) : Option Nat :=
  if i.opcode.isJump then i.index?.filter (· ≤ p.length) else none

/-- An instruction as assembly text. -/
def instructionText (p : Program) (i : Instruction) : String :=
  let plain := i.opcode.mnemonic ++ " " ++ toString i.operand.toInt
  match i.opcode.operandKind with
  | .unused => i.opcode.mnemonic
  | .constant | .slot | .syscall => plain
  | .target =>
    match target? p i with
    | some target => i.opcode.mnemonic ++ " " ++ labelName target
    | none => plain
  | .function =>
    match i.index?.bind (p.functions[·]?) with
    | some f => i.opcode.mnemonic ++ " " ++ f.name
    | none => plain

/-- Functions can be declared where they start when that keeps the order of
the table. -/
def declaredInline (p : Program) : Bool :=
  ascending (p.functions.toList.map (·.entry))
    && p.functions.all (·.entry ≤ p.length)

/-- The positions that need a label: jump targets, and the starts of functions
declared at the top. -/
def labelled (p : Program) : List Nat :=
  p.code.toList.filterMap (target? p)
    ++ if declaredInline p then []
      else (p.functions.toList.map (·.entry)).filter (· ≤ p.length)

/-- A function declared at the top: its start is a label when it lies in the
code or right behind it. -/
def headerLine (p : Program) (f : Function) : String :=
  functionText f ++ " " ++ if f.entry ≤ p.length then labelName f.entry
    else toString f.entry

/-- The lines at one position: the functions that start there, its label, and
its instruction. -/
def positionLines (p : Program) (starts : List Function)
    (labels : Std.TreeSet Nat) (position : Nat) : List String :=
  (starts.filter (·.entry = position)).flatMap (fun f => ["", functionText f])
    ++ (if labels.contains position then [labelName position ++ ":"] else [])
    ++ (match p.code[position]? with
      | some i => ["    " ++ instructionText p i]
      | none => [])

/-- The lines of a program's text. -/
def listingLines (p : Program) : List String :=
  let inlined := declaredInline p
  let labels := Std.TreeSet.ofList (labelled p)
  p.constants.toList.map (fun v => ".const " ++ constantText v)
    ++ (if inlined then [] else p.functions.toList.map (headerLine p))
    ++ [".entry " ++ p.entryFunction.name]
    ++ (List.range (p.length + 1)).flatMap
      (positionLines p (if inlined then p.functions.toList else []) labels)

/-- The assembly text of a program. -/
def listing (p : Program) : String :=
  String.join ((listingLines p).map (· ++ "\n"))

end StackMachine.Assembly
