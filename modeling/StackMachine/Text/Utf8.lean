/-
Text from bytes. Well-formed UTF-8 is read as the text it encodes. A device
that was cut off may hold half a character, so every start of a sequence that
cannot be completed is shown as one replacement mark.
-/

namespace StackMachine.Text

/-- The length of the sequence that a byte starts; no sequence starts
with the others. -/
def sequenceLength (lead : UInt8) : Nat :=
  if lead < 0x80 then 1
  else if lead < 0xC2 then 0
  else if lead < 0xE0 then 2
  else if lead < 0xF0 then 3
  else if lead < 0xF5 then 4
  else 0

/-- Whether a byte may follow the one that starts a sequence: no longer
spelling than needed, no surrogate, and nothing past the last code point. -/
def maySecond (lead second : UInt8) : Bool :=
  if lead = 0xE0 then 0xA0 ≤ second && second ≤ 0xBF
  else if lead = 0xED then 0x80 ≤ second && second ≤ 0x9F
  else if lead = 0xF0 then 0x90 ≤ second && second ≤ 0xBF
  else if lead = 0xF4 then 0x80 ≤ second && second ≤ 0x8F
  else 0x80 ≤ second && second ≤ 0xBF

/-- How many bytes of `rest` continue the sequence that `lead` starts. -/
def continued (lead : UInt8) (rest : List UInt8) : Nat :=
  match rest with
  | second :: others =>
    if 1 < sequenceLength lead && maySecond lead second then
      1 + ((others.take (sequenceLength lead - 2)).takeWhile
        fun b => 0x80 ≤ b && b ≤ 0xBF).length
    else 0
  | [] => 0

/-- What the bytes at the front show as. -/
def shown (front : List UInt8) : String :=
  (String.fromUTF8? ⟨front.toArray⟩).getD "\uFFFD"

/-- The characters of some bytes, sequence by sequence. -/
def shownSequences : List UInt8 → List String
  | [] => []
  | lead :: rest =>
    let n := continued lead rest
    shown (lead :: rest.take n) :: shownSequences (rest.drop n)
termination_by bytes => bytes.length
decreasing_by
  simp only [List.length_drop, List.length_cons]
  omega

/-- The text of some bytes. -/
def ofUtf8 (bytes : ByteArray) : String :=
  match String.fromUTF8? bytes with
  | some text => text
  | none => String.join (shownSequences bytes.data.toList)

end StackMachine.Text
