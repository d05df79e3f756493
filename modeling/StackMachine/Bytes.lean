/-
Little-endian words. A number is written as a fixed count of bytes, least
significant first, and a list of bytes spells a number back; signed numbers
go through two's complement of the same width. The two directions undo each
other on everything that fits, so a format built from these words has one
spelling per number.
-/

namespace StackMachine.Bytes

-- ======================================================= unsigned words

/-- The `width` low bytes of `n`, least significant first. -/
def ofNat : (width : Nat) → Nat → List UInt8
  | 0, _ => []
  | width + 1, n => UInt8.ofNat n :: ofNat width (n / 256)

/-- How many numbers there are that fit `width` bytes. -/
def capacity (width : Nat) : Nat := Nat.pow 256 width

/-- One byte more tells 256 times as many numbers apart. -/
theorem capacity_succ (width : Nat) :
    capacity (width + 1) = 256 * capacity width :=
  Nat.mul_comm _ _

/-- The number that `bytes` spell, least significant first. -/
def toNat : (bytes : List UInt8) → Nat
  | [] => 0
  | b :: rest => b.toNat + 256 * toNat rest

@[simp] theorem length_ofNat (width n : Nat) :
    (ofNat width n).length = width := by
  induction width generalizing n with
  | zero => rfl
  | succ width ih => simp [ofNat, ih]

/-- A list of bytes spells a number that fits its length. -/
theorem toNat_lt (bytes : List UInt8) :
    toNat bytes < capacity bytes.length := by
  induction bytes with
  | nil => exact Nat.one_pos
  | cons b rest ih =>
    have hb : b.toNat < 256 := b.toNat_lt
    simp only [toNat, List.length_cons, capacity_succ]
    omega

/-- Writing keeps the number modulo what the width can hold. -/
theorem toNat_ofNat_mod (width n : Nat) :
    toNat (ofNat width n) = n % capacity width := by
  induction width generalizing n with
  | zero => exact (Nat.mod_one n).symm
  | succ width ih =>
      rw [ofNat, toNat, ih, UInt8.toNat_ofNat', capacity_succ, Nat.mod_mul]

/-- A number that fits is read back. -/
theorem toNat_ofNat {width n : Nat} (h : n < capacity width) :
    toNat (ofNat width n) = n := by
  rw [toNat_ofNat_mod, Nat.mod_eq_of_lt h]

/-- Bytes are the only spelling of the number they spell. -/
theorem ofNat_toNat (bytes : List UInt8) :
    ofNat bytes.length (toNat bytes) = bytes := by
  induction bytes with
  | nil => rfl
  | cons b rest ih =>
    have hb : b.toNat < 256 := b.toNat_lt
    have hdiv : (b.toNat + 256 * toNat rest) / 256 = toNat rest := by omega
    have hmod : UInt8.ofNat (b.toNat + 256 * toNat rest) = b := by
      apply UInt8.toNat_inj.mp
      rw [UInt8.toNat_ofNat']
      omega
    simp only [List.length_cons, ofNat, toNat, hdiv, hmod, ih]

-- ========================================================= signed words

/-- Two's complement of `width` bytes. -/
def ofInt (width : Nat) (n : Int) : List UInt8 :=
  ofNat width (n % capacity width).toNat

/-- The two's complement number that `bytes` spell. -/
def toInt (bytes : List UInt8) : Int :=
  Int.bmod (toNat bytes) (capacity bytes.length)

@[simp] theorem length_ofInt (width : Nat) (n : Int) :
    (ofInt width n).length = width := by
  simp [ofInt]

end StackMachine.Bytes
