/-
The instruction set: 23 operations with stable 16-bit codes and assembly
mnemonics. Eight of them are reserved: they decode and assemble like the
others, but no machine executes them. Codes are written by one table and
read by another; `ofCode?_code` and `code_of_ofCode?` say that the two agree,
so that neither can be changed alone. A mnemonic is read by a search through
the opcodes.
-/
import StackMachine.Text.Letters

namespace StackMachine

/-- What an instruction does. -/
inductive Opcode where
  | nop | pushConst
  | add | sub | mul | div | cmpLt
  | cmpEq | cmpNe | cmpLe | cmpGt | cmpGe
  | loadLocal | storeLocal
  | jump | jumpIfFalse
  | call | ret
  | not | and | or
  | halt | syscall
  deriving DecidableEq

/-- What an opcode's operand refers to. -/
inductive OperandKind where
  /-- The opcode takes no operand, and the field is zero. -/
  | unused
  /-- An index into the constants. -/
  | constant
  /-- A local slot of the running frame. -/
  | slot
  /-- An absolute instruction index. -/
  | target
  /-- An index into the function table. -/
  | function
  /-- The number of a host routine. -/
  | syscall
  deriving DecidableEq

namespace Opcode

/-- All opcodes, by increasing code. -/
def all : List Opcode :=
  [nop, pushConst, add, sub, mul, div, cmpLt, cmpEq, cmpNe,
    cmpLe, cmpGt, cmpGe, loadLocal, storeLocal, jump, jumpIfFalse, call, ret,
    not, and, or, halt, syscall]

/-- The code in instruction records. -/
def code : Opcode → UInt16
  | nop => 0x0000
  | pushConst => 0x0001
  | add => 0x0002
  | sub => 0x0003
  | mul => 0x0004
  | div => 0x0005
  | cmpLt => 0x0006
  | cmpEq => 0x0007
  | cmpNe => 0x0008
  | cmpLe => 0x0009
  | cmpGt => 0x000A
  | cmpGe => 0x000B
  | loadLocal => 0x0010
  | storeLocal => 0x0011
  | jump => 0x0020
  | jumpIfFalse => 0x0021
  | call => 0x0030
  | ret => 0x0031
  | not => 0x0040
  | and => 0x0041
  | or => 0x0042
  | halt => 0x00FF
  | syscall => 0x0600

/-- The name in assembly text. -/
def mnemonic : Opcode → String
  | nop => "NOP"
  | pushConst => "PUSH_CONST"
  | add => "ADD"
  | sub => "SUB"
  | mul => "MUL"
  | div => "DIV"
  | cmpLt => "CMP_LT"
  | cmpEq => "CMP_EQ"
  | cmpNe => "CMP_NE"
  | cmpLe => "CMP_LE"
  | cmpGt => "CMP_GT"
  | cmpGe => "CMP_GE"
  | loadLocal => "LOAD_LOCAL"
  | storeLocal => "STORE_LOCAL"
  | jump => "JUMP"
  | jumpIfFalse => "JUMP_IF_FALSE"
  | call => "CALL"
  | ret => "RETURN"
  | not => "NOT"
  | and => "AND"
  | or => "OR"
  | halt => "HALT"
  | syscall => "SYSCALL"

/-- The opcode with this code. -/
def ofCode? (c : UInt16) : Option Opcode :=
  match c with
  | 0x0000 => some nop
  | 0x0001 => some pushConst
  | 0x0002 => some add
  | 0x0003 => some sub
  | 0x0004 => some mul
  | 0x0005 => some div
  | 0x0006 => some cmpLt
  | 0x0007 => some cmpEq
  | 0x0008 => some cmpNe
  | 0x0009 => some cmpLe
  | 0x000A => some cmpGt
  | 0x000B => some cmpGe
  | 0x0010 => some loadLocal
  | 0x0011 => some storeLocal
  | 0x0020 => some jump
  | 0x0021 => some jumpIfFalse
  | 0x0030 => some call
  | 0x0031 => some ret
  | 0x0040 => some not
  | 0x0041 => some and
  | 0x0042 => some or
  | 0x00FF => some halt
  | 0x0600 => some syscall
  | _ => none

/-- The opcode with this mnemonic, whatever its case. -/
def ofMnemonic? (text : String) : Option Opcode :=
  all.find? fun op => Text.sameLetters op.mnemonic text

/-- Reserved opcodes are part of the instruction set, but no machine executes
them. -/
def isReserved : Opcode → Bool
  | cmpEq | cmpNe | cmpLe | cmpGt | cmpGe | not | and | or => true
  | _ => false

/-- What the operand of an instruction with this opcode refers to. -/
def operandKind : Opcode → OperandKind
  | pushConst => .constant
  | loadLocal | storeLocal => .slot
  | jump | jumpIfFalse => .target
  | call => .function
  | syscall => .syscall
  | _ => .unused

/-- Jumps are the opcodes whose operand is an instruction index. -/
def isJump (op : Opcode) : Bool := op.operandKind == .target

/-- The table holds every opcode. -/
theorem mem_all (op : Opcode) : op ∈ all := by
  cases op <;> decide

/-- Every opcode is read back from its code. -/
theorem ofCode?_code (op : Opcode) : ofCode? op.code = some op := by
  cases op <;> rfl

/-- What is read from a code is the opcode that is written with it. -/
theorem code_of_ofCode? {c : UInt16} {op : Opcode} (h : ofCode? c = some op) :
    op.code = c := by
  unfold ofCode? at h
  split at h <;> simp only [Option.some.injEq, reduceCtorEq] at h
    <;> subst h <;> rfl

end Opcode

end StackMachine
