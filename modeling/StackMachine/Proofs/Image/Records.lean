/-
Signed words and instruction records, read back. Two's complement of a width
keeps a number up to the width's capacity (`toInt_ofInt`), so it keeps every
number of a machine type of that width, and a record gives its instruction
back (`decode_encode`). In the other direction nothing is lost either: bytes
are written again from the number or the instruction that they spell.
-/
import StackMachine.Image.Reader

namespace StackMachine

-- ========================================================= signed words

theorem Wide.val_wrap (n : Int) :
    (Wide.wrap n).val = n.bmod 0x100000000000000000000000000000000 := rfl

namespace Bytes

/-- Numbers that differ by whole capacities are written alike. -/
theorem toNat_ofInt (width : Nat) (n : Int) :
    (toNat (ofInt width n) : Int) = n % capacity width := by
  have hpos : (0 : Int) < capacity width :=
    Int.natCast_pos.mpr (Nat.pow_pos (by decide))
  have hnonneg : 0 ≤ n % capacity width :=
    Int.emod_nonneg n (Int.ne_of_gt hpos)
  have hlt : n % capacity width < capacity width := Int.emod_lt_of_pos n hpos
  unfold ofInt
  rw [toNat_ofNat (by omega), Int.toNat_of_nonneg hnonneg]

/-- Written with so many bytes, an integer is read back as its balanced
remainder. -/
theorem toInt_ofInt (width : Nat) (n : Int) :
    toInt (ofInt width n) = n.bmod (capacity width) := by
  unfold toInt
  rw [toNat_ofInt, length_ofInt, Int.emod_bmod]

/-- One that fits is read back as itself. -/
theorem toInt_ofInt_of_fits {width : Nat} {n : Int}
    (hle : -(capacity width : Int) ≤ n * 2) (hlt : n * 2 < capacity width) :
    toInt (ofInt width n) = n := by
  rw [toInt_ofInt, Int.bmod_eq_of_le_mul_two hle hlt]

/-- Eight bytes hold every integer of 64 bits. -/
theorem ofInt_toInt_int64 (n : Int64) :
    Int64.ofInt (toInt (ofInt 8 n.toInt)) = n := by
  have hcapacity : capacity 8 = 2 ^ 64 := by decide
  have hle := n.le_toInt
  have hlt := n.toInt_lt
  rw [toInt_ofInt_of_fits (by omega) (by omega), Int64.ofInt_toInt]

/-- Four bytes hold every one of 32. -/
theorem ofInt_toInt_int32 (n : Int32) :
    Int32.ofInt (toInt (ofInt 4 n.toInt)) = n := by
  have hcapacity : capacity 4 = 2 ^ 32 := by decide
  have hle := n.le_toInt
  have hlt := n.toInt_lt
  rw [toInt_ofInt_of_fits (by omega) (by omega), Int32.ofInt_toInt]

/-- Sixteen bytes hold every mantissa. -/
theorem wrap_ofInt_wide (n : Wide) :
    Wide.wrap (toNat (ofInt 16 n.val)) = n := by
  have hcapacity : capacity 16 = 0x100000000000000000000000000000000 := by
    decide
  have hrange := n.property
  unfold InWideRange at hrange
  apply Subtype.ext
  rw [Wide.val_wrap, toNat_ofInt, hcapacity, Int.emod_bmod]
  exact Int.bmod_eq_of_le_mul_two (by omega) (by omega)

/-- Only what a number leaves of the capacity is written. -/
theorem ofNat_mod (width n : Nat) :
    ofNat width (n % capacity width) = ofNat width n := by
  have hself := ofNat_toNat (ofNat width n)
  rwa [length_ofNat, toNat_ofNat_mod] at hself

/-- Two bytes tell a number no better than 16 bits do. -/
theorem ofNat_uint16 (n : Nat) :
    ofNat 2 (UInt16.ofNat n).toNat = ofNat 2 n := by
  rw [UInt16.toNat_ofNat', show 2 ^ 16 = capacity 2 by decide, ofNat_mod]

/-- Eight bytes tell it no better than 64 bits do. -/
theorem ofNat_uint64 (n : Nat) :
    ofNat 8 (UInt64.ofNat n).toNat = ofNat 8 n := by
  rw [UInt64.toNat_ofNat', show 2 ^ 64 = capacity 8 by decide, ofNat_mod]

/-- Nor do the bytes tell an integer from its balanced remainder. -/
theorem ofInt_bmod (width : Nat) (n : Int) :
    ofInt width (n.bmod (capacity width)) = ofInt width n := by
  unfold ofInt
  rw [Int.bmod_emod]

/-- Bytes are the only spelling of the signed number they spell. -/
theorem ofInt_toInt {bytes : List UInt8} {width : Nat}
    (h : bytes.length = width) :
    ofInt width (toInt bytes) = bytes := by
  subst h
  have hlt := toNat_lt bytes
  have hmod : (toNat bytes : Int) % capacity bytes.length = toNat bytes :=
    Int.emod_eq_of_lt (by omega) (by omega)
  unfold toInt
  rw [ofInt_bmod, ofInt, hmod, Int.toNat_natCast, ofNat_toNat]

/-- So cutting an integer to 64 bits does not change its eight bytes. -/
theorem ofInt_ofInt_int64 (n : Int) :
    ofInt 8 (Int64.ofInt n).toInt = ofInt 8 n := by
  rw [Int64.toInt_ofInt, show Int64.size = capacity 8 by decide, ofInt_bmod]

/-- Nor does cutting it to 32 bits change its four. -/
theorem ofInt_ofInt_int32 (n : Int) :
    ofInt 4 (Int32.ofInt n).toInt = ofInt 4 n := by
  rw [Int32.toInt_ofInt, show Int32.size = capacity 4 by decide, ofInt_bmod]

end Bytes

-- ============================================================== records

namespace Instruction

/-- A record is decoded to the instruction that it was written for. -/
theorem decode_encode (i : Instruction) : decode i.encode = .ok i := by
  have hcode : UInt16.ofNat (Bytes.toNat (Bytes.ofNat 2 i.opcode.code.toNat))
      = i.opcode.code := by
    rw [Bytes.toNat_ofNat i.opcode.code.toNat_lt, UInt16.ofNat_toNat]
  have htake : i.encode.take 2 = Bytes.ofNat 2 i.opcode.code.toNat := by
    unfold encode
    rw [List.append_assoc, List.take_left' (Bytes.length_ofNat _ _)]
  have hoperand : (i.encode.drop 2).take 4
      = Bytes.ofInt 4 i.operand.toInt := by
    unfold encode
    rw [List.append_assoc, List.drop_left' (Bytes.length_ofNat _ _),
      List.take_left' (Bytes.length_ofInt _ _)]
  have hspare : (i.encode.drop 6).take 4 = Bytes.ofInt 4 i.spare.toInt := by
    have hlength :
        (Bytes.ofNat 2 i.opcode.code.toNat
          ++ Bytes.ofInt 4 i.operand.toInt).length = 6 := by
      simp
    unfold encode
    rw [List.drop_left' hlength, List.take_of_length_le (by simp)]
  unfold decode Opcode.decode
  rw [htake, hoperand, hspare, hcode, Opcode.ofCode?_code,
    Bytes.ofInt_toInt_int32, Bytes.ofInt_toInt_int32]

/-- A record is the only one of its instruction. -/
theorem encode_of_decode {record : List UInt8} {i : Instruction}
    (hlength : record.length = recordSize) (h : decode record = .ok i) :
    i.encode = record := by
  have hsize : record.length = 10 := hlength
  unfold decode Opcode.decode at h
  cases hop : Opcode.ofCode? (UInt16.ofNat (Bytes.toNat (record.take 2))) with
  | none =>
      rw [hop] at h
      cases h
  | some op =>
      rw [hop] at h
      cases h
      have hcode := Opcode.code_of_ofCode? hop
      have htwo : (record.take 2).length = 2 := by
        rw [List.length_take]
        omega
      -- the code that was read is the one that is written
      have hfirst : Bytes.ofNat 2 op.code.toNat = record.take 2 := by
        have hself := Bytes.ofNat_toNat (record.take 2)
        rw [htwo] at hself
        rw [hcode, Bytes.ofNat_uint16, hself]
      have hoperand : ((record.drop 2).take 4).length = 4 := by
        rw [List.length_take, List.length_drop]
        omega
      have hspare : ((record.drop 6).take 4).length = 4 := by
        rw [List.length_take, List.length_drop]
        omega
      have hrest : (record.drop 6).take 4 = (record.drop 2).drop 4 := by
        rw [List.drop_drop, List.take_of_length_le]
        rw [List.length_drop]
        omega
      unfold encode
      rw [hfirst, Bytes.ofInt_ofInt_int32, Bytes.ofInt_ofInt_int32,
        Bytes.ofInt_toInt hoperand, Bytes.ofInt_toInt hspare, hrest,
        List.append_assoc, List.take_append_drop,
        List.take_append_drop]

end Instruction

end StackMachine
