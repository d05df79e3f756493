/-
Writing program images. An image is the magic, a version, the entry index,
and three counted sections: constants, functions, code. Every count, length
and index is a 32-bit word; the first one that does not fit, in the order in
which they are written, refuses the whole image.
-/
import StackMachine.Program

namespace StackMachine

namespace Image

/-- The first bytes of every image. -/
def magic : List UInt8 := [0x54, 0x41, 0x52, 0x4E]

/-- The version of the format. -/
def version : UInt16 := 1

/-- The words of an image that a program may overflow. -/
inductive Field where
  | entryIndex | constantCount | stringLength | functionCount
  | functionNameLength
  | functionEntry | parameterCount | localCount | instructionCount
  deriving DecidableEq

/-- The name of a field in messages. -/
def Field.name : Field → String
  | entryIndex => "entry index"
  | constantCount => "constant count"
  | stringLength => "string length"
  | functionCount => "function count"
  | functionNameLength => "function name length"
  | functionEntry => "function entry"
  | parameterCount => "parameter count"
  | localCount => "local count"
  | instructionCount => "instruction count"

/-- A field that is too large for an image. -/
structure FieldTooLarge where
  field : Field
  value : Nat
  deriving DecidableEq

/-- The wording of the refusal. -/
def FieldTooLarge.message (e : FieldTooLarge) : String :=
  e.field.name ++ " " ++ toString e.value ++ " does not fit in a module image"

/-- A count, length or index as a 32-bit word. -/
def word (field : Field) (n : Nat) : Except FieldTooLarge (List UInt8) :=
  if n < UInt32.size then .ok (Bytes.ofNat 4 n) else .error ⟨field, n⟩

/-- The bytes of a text. -/
def utf8 (s : String) : List UInt8 := s.toUTF8.data.toList

/-- A text behind its length in bytes. -/
def text (field : Field) (s : String) : Except FieldTooLarge (List UInt8) := do
  let length ← word field (utf8 s).length
  return length ++ utf8 s

/-- A constant behind the tag of its kind. -/
def constant (v : Value) : Except FieldTooLarge (List UInt8) :=
  match v with
  | .null => .ok [v.kind.tag]
  | .int n => .ok (v.kind.tag :: Bytes.ofInt 8 n.toInt)
  | .float x => .ok (v.kind.tag :: Bytes.ofNat 8 x.bits.toNat)
  | .decimal d =>
    .ok (v.kind.tag :: (Bytes.ofInt 16 d.mantissa ++ [UInt8.ofNat d.scale]))
  | .bool b => .ok [v.kind.tag, if b then 1 else 0]
  | .string s => do
    let bytes ← text .stringLength s
    return v.kind.tag :: bytes

/-- An entry of the function table. -/
def function (f : Function) : Except FieldTooLarge (List UInt8) := do
  let name ← text .functionNameLength f.name
  let entry ← word .functionEntry f.entry
  let params ← word .parameterCount f.params
  let locals ← word .localCount f.locals
  return name ++ entry ++ params ++ locals

/-- The parts of a section one after the other; the first that is refused
refuses the section. -/
def section? (part : α → Except FieldTooLarge (List UInt8)) :
    List α → Except FieldTooLarge (List UInt8)
  | [] => .ok []
  | a :: rest => do
    let bytes ← part a
    let others ← section? part rest
    return bytes ++ others

end Image

/-- The image of a program. -/
def Program.encode
    (p : Program) : Except Image.FieldTooLarge (List UInt8) := do
  let entry ← Image.word .entryIndex p.entry
  let constantCount ← Image.word .constantCount p.constants.size
  let constants ← Image.section? Image.constant p.constants.toList
  let functionCount ← Image.word .functionCount p.functions.size
  let functions ← Image.section? Image.function p.functions.toList
  let instructionCount ← Image.word .instructionCount p.code.size
  return Image.magic ++ Bytes.ofNat 2 Image.version.toNat ++ entry
    ++ constantCount ++ constants
    ++ functionCount ++ functions ++ instructionCount
      ++ Instruction.encodeStream p.code.toList

end StackMachine
