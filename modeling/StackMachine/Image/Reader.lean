/-
Reading program images. A reader takes bytes from the front and knows how
many were taken before, since every error names a place. Errors come in
reading order: the first field that is cut off or has an impossible value
refuses the image, then bytes past the end do, and last a table without the
entry function.
-/
import StackMachine.Image.Writer

namespace StackMachine

/-- The 128-bit integer that is congruent to `n`. -/
def Wide.wrap (n : Int) : Wide :=
  ⟨n.bmod (0x100000000000000000000000000000000), by
    have h₁ :=
      Int.le_bmod (x := n) (m := 0x100000000000000000000000000000000)
        (by decide)
    have h₂ :=
      Int.bmod_lt (x := n) (m := 0x100000000000000000000000000000000)
        (by decide)
    unfold InWideRange
    omega⟩

/-- Why bytes are not an image. -/
inductive ImageError where
  /-- The bytes do not start with the magic. -/
  | badMagic
  /-- The format has another version. -/
  | unsupportedVersion (version : UInt16)
  /-- The bytes end inside the field that starts at `offset`. -/
  | endOfImage (offset : Nat)
  /-- A constant has an unknown tag, or a truth value is neither 0 nor 1; the
  tag is the constant's. -/
  | invalidTag (tag : UInt8) (offset : Nat)
  /-- A text is not UTF-8. -/
  | invalidUtf8 (offset : Nat)
  /-- A decimal has too many digits after the point. -/
  | invalidDecimal (scale : UInt8) (offset : Nat)
  /-- Bytes remain behind the code. -/
  | trailingBytes (count : Nat)
  /-- A record is no instruction. -/
  | record (error : RecordError)
  /-- The parts do not make a program. -/
  | program (error : ProgramError)
  deriving DecidableEq

/-- The wording of an image error. -/
def ImageError.message : ImageError → String
  | badMagic => "bad magic: not a tarn module image"
  | unsupportedVersion version => s!"unsupported image version {version}"
  | endOfImage offset => s!"unexpected end of image at byte {offset}"
  | invalidTag tag offset =>
    "invalid value tag " ++ Text.hexPadded 2 tag.toNat ++ s!" at byte {offset}"
  | invalidUtf8 offset => s!"invalid UTF-8 in string at byte {offset}"
  | invalidDecimal scale offset =>
    s!"invalid decimal scale {scale} at byte {offset}"
  | trailingBytes count => s!"{count} trailing bytes after module image"
  | record error => error.message
  | program error => error.message

namespace Image

-- ============================================================== readers

/-- The bytes that are left, and how many came before them. -/
structure Cursor where
  offset : Nat
  rest : List UInt8

/-- Something read from the front of the bytes. -/
abbrev Reader := StateT Cursor (Except ImageError)

/-- How many bytes came before. -/
def here : Reader Nat := fun c => .ok (c.offset, c)

/-- Refuses the image. -/
def refuse (error : ImageError) : Reader α := fun _ => .error error

/-- The next `n` bytes. -/
def take (n : Nat) : Reader (List UInt8) := fun c =>
  let front := c.rest.take n
  if front.length = n then .ok (front, ⟨c.offset + n, c.rest.drop n⟩)
  else .error (.endOfImage c.offset)

/-- The next byte. -/
def byte : Reader UInt8 := do
  let bytes ← take 1
  return UInt8.ofNat (Bytes.toNat bytes)

/-- The next 32-bit word. -/
def readWord : Reader Nat := do
  let bytes ← take 4
  return Bytes.toNat bytes

/-- The next `n` parts, behind those already read. -/
def many (part : Reader α) : (n : Nat) → Array α → Reader (Array α)
  | 0, done => pure done
  | n + 1, done => do
    let a ← part
    many part n (done.push a)

/-- A count and then as many parts. -/
def counted (part : Reader α) : Reader (Array α) := do
  let n ← readWord
  many part n #[]

-- ================================================================ parts

/-- A text behind its length. -/
def readText : Reader String := do
  let length ← readWord
  let offset ← here
  let bytes ← take length
  match String.fromUTF8? ⟨bytes.toArray⟩ with
  | some s => return s
  | none => refuse (.invalidUtf8 offset)

/-- The payload of a constant of the given kind. -/
def payload (tag : UInt8) : Kind → Reader Value
  | .null => return .null
  | .int => do
    let bytes ← take 8
    return .int (Int64.ofInt (Bytes.toInt bytes))
  | .float => do
    let bytes ← take 8
    return .float ⟨UInt64.ofNat (Bytes.toNat bytes)⟩
  | .decimal => do
    let mantissa ← take 16
    let offset ← here
    let scale ← byte
    match Decimal.new? (Wide.wrap (Bytes.toNat mantissa)) scale.toNat with
    | some d => return .decimal d
    | none => refuse (.invalidDecimal scale offset)
  | .bool => do
    let offset ← here
    let b ← byte
    if b = 0 then return .bool false
    else if b = 1 then return .bool true
    else refuse (.invalidTag tag offset)
  | .string => do
    let s ← readText
    return .string s

/-- A constant: the tag of its kind, then its payload. -/
def readConstant : Reader Value := do
  let offset ← here
  let tag ← byte
  match Kind.ofTag? tag with
  | some kind => payload tag kind
  | none => refuse (.invalidTag tag offset)

/-- An entry of the function table. -/
def readFunction : Reader Function := do
  let name ← readText
  let entry ← readWord
  let params ← readWord
  let locals ← readWord
  return { name, entry, params, locals }

/-- An instruction record. -/
def readInstruction : Reader Instruction := do
  let record ← take Instruction.recordSize
  match Instruction.decode record with
  | .ok i => return i
  | .error e => refuse (.record e)

/-- The magic and the version. -/
def readHeader : Reader Unit := do
  let start ← take 4
  if start ≠ magic then refuse .badMagic
  let bytes ← take 2
  let v := UInt16.ofNat (Bytes.toNat bytes)
  if v ≠ version then refuse (.unsupportedVersion v)

/-- A whole image. -/
def readProgram : Reader Program := do
  readHeader
  let entry ← readWord
  let constants ← counted readConstant
  let functions ← counted readFunction
  let code ← counted readInstruction
  let c ← get
  if !c.rest.isEmpty then refuse (.trailingBytes c.rest.length)
  match Program.new constants code functions entry with
  | .ok p => return p
  | .error e => refuse (.program e)

end Image

/-- The program of an image. -/
def Program.decode (bytes : List UInt8) : Except ImageError Program :=
  (Image.readProgram.run' ⟨0, bytes⟩)

end StackMachine
