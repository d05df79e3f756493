/-
Instructions and their records. A record is ten bytes, little-endian: the
opcode's code (2), the operand (4) and a second operand that no opcode uses
(4). A stream is a concatenation of records, so its length is a multiple of
ten, and it is refused at the first record whose code is unknown.
-/
import StackMachine.Bytes
import StackMachine.Opcode

namespace StackMachine

/-- One instruction. -/
structure Instruction where
  opcode : Opcode
  /-- What it means depends on `Opcode.operandKind`; zero when unused. -/
  operand : Int32 := 0
  /-- Unused by every opcode, and zero in well-formed code. -/
  spare : Int32 := 0
  deriving DecidableEq

/-- Why bytes are not instruction records. -/
inductive RecordError where
  /-- A record's code is not part of the instruction set. -/
  | unknownOpcode (code : UInt16)
  /-- The length of a stream is not a multiple of the record size. -/
  | unevenLength (length : Nat)
  deriving DecidableEq

/-- The wording of a record error. -/
def RecordError.message : RecordError → String
  | unknownOpcode code => "unknown opcode: " ++ Text.hexPadded 4 code.toNat
  | unevenLength length =>
    s!"invalid record stream length: {length} (must be multiple of 10)"

/-- The opcode with this code, or the error that names the code. -/
def Opcode.decode (code : UInt16) : Except RecordError Opcode :=
  match ofCode? code with
  | some op => .ok op
  | none => .error (.unknownOpcode code)

/-- The operand as an index, when it is not negative. -/
def Instruction.index? (i : Instruction) : Option Nat :=
  if 0 ≤ i.operand.toInt then some i.operand.toInt.toNat else none

namespace Instruction

/-- An operand is an index exactly if it is not negative. -/
theorem index?_eq_some_iff {i : Instruction} {n : Nat} :
    i.index? = some n ↔ i.operand.toInt = n := by
  unfold index?
  split
  · rw [Option.some_inj]
    omega
  · refine iff_of_false nofun ?_
    omega

/-- Bytes in one record. -/
def recordSize : Nat := 10

/-- The record of an instruction. -/
def encode (i : Instruction) : List UInt8 :=
  Bytes.ofNat 2 i.opcode.code.toNat ++ Bytes.ofInt 4 i.operand.toInt
    ++ Bytes.ofInt 4 i.spare.toInt

/-- The instruction of a ten-byte record. -/
def decode (record : List UInt8) : Except RecordError Instruction :=
  match Opcode.decode (UInt16.ofNat (Bytes.toNat (record.take 2))) with
  | .error e => .error e
  | .ok opcode =>
    .ok {
      opcode
      operand := Int32.ofInt (Bytes.toInt ((record.drop 2).take 4))
      spare := Int32.ofInt (Bytes.toInt ((record.drop 6).take 4)) }

/-- The records of a stream, in order. -/
def encodeStream (code : List Instruction) : List UInt8 := code.flatMap encode

/-- Whole records from the front; fewer than ten bytes at the end are left
out. -/
def decodeRecords : List UInt8 → Except RecordError (List Instruction)
  | b₀ :: b₁ :: b₂ :: b₃ :: b₄ :: b₅ :: b₆ :: b₇ :: b₈ :: b₉ :: rest =>
    match decode [b₀, b₁, b₂, b₃, b₄, b₅, b₆, b₇, b₈, b₉] with
    | .error e => .error e
    | .ok i =>
      match decodeRecords rest with
      | .error e => .error e
      | .ok is => .ok (i :: is)
  | _ => .ok []

/-- The instructions of a stream of records. -/
def decodeStream
    (bytes : List UInt8) : Except RecordError (List Instruction) :=
  if bytes.length % recordSize = 0 then decodeRecords bytes
  else .error (.unevenLength bytes.length)

/-- Every record has the same size. -/
@[simp] theorem length_encode (i : Instruction) :
    i.encode.length = recordSize := by
  simp [encode, recordSize]

end Instruction

end StackMachine
