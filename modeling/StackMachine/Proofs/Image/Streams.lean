/-
Streams of records. A stream that decodes is the one stream of its
instructions, and every list of instructions has one (`stream_bijection`): the
reader undoes the writer and the writer the reader. What does not decode is
refused for its length or, if that is a multiple of the record size, for the
code of its first record that has none of the 23 codes.

Reading goes record by record, so everything is an induction over the records
that a stream is put together from (`WholeRecords`); a length is a multiple of
the record size exactly if there are such records.
-/
import StackMachine.Proofs.Image.Records

namespace StackMachine

-- ================================================================ codes

namespace Opcode

/-- The codes of the instruction set. -/
def codes : List UInt16 := all.map code

theorem length_codes : codes.length = 23 := rfl

theorem nodup_codes : codes.Nodup := by decide

theorem mem_codes_iff {c : UInt16} :
    c ∈ codes ↔ ∃ op : Opcode, op.code = c := by
  simp [codes, mem_all]

/-- Exactly the numbers that are no codes belong to no opcode. -/
theorem ofCode?_eq_none_iff {c : UInt16} : ofCode? c = none ↔ c ∉ codes := by
  rw [mem_codes_iff]
  constructor
  · rintro hnone ⟨op, rfl⟩
    rw [ofCode?_code] at hnone
    cases hnone
  · intro hcodes
    cases hop : ofCode? c with
    | none => rfl
    | some op => exact absurd ⟨op, code_of_ofCode? hop⟩ hcodes

end Opcode

namespace Instruction

variable {record rest bytes : List UInt8} {e : RecordError}

-- ============================================================== records

/-- The code that a record begins with, low byte first. -/
def codeField (record : List UInt8) : UInt16 :=
  UInt16.ofNat (Bytes.toNat (record.take 2))

/-- A record is refused for its code and for nothing else. -/
theorem decode_eq_error_iff :
    decode record = .error e ↔ codeField record ∉ Opcode.codes
      ∧ e = .unknownOpcode (codeField record) := by
  rw [← Opcode.ofCode?_eq_none_iff]
  unfold decode Opcode.decode codeField
  cases Opcode.ofCode? (UInt16.ofNat (Bytes.toNat (record.take 2))) with
  | none => simp [eq_comm]
  | some op => simp

/-- The records of a stream are decoded from the front, and the first one that
is refused ends it. -/
theorem decodeRecords_append (hlength : record.length = recordSize)
    (rest : List UInt8) :
    decodeRecords (record ++ rest) =
      match decode record with
      | .error e => .error e
      | .ok i =>
        match decodeRecords rest with
        | .error e => .error e
        | .ok is => .ok (i :: is) := by
  match record, hlength with
  | [_, _, _, _, _, _, _, _, _, _], _ => rfl

/-- Bytes put together from whole records. -/
inductive WholeRecords : List UInt8 → Prop
  | nil : WholeRecords []
  | cons {record rest : List UInt8} (hlength : record.length = recordSize)
    (hrest : WholeRecords rest) : WholeRecords (record ++ rest)

/-- Whole records are a multiple of the record size. -/
theorem WholeRecords.length_mod (h : WholeRecords bytes) :
    bytes.length % recordSize = 0 := by
  induction h with
  | nil => rfl
  | cons hlength _ ih =>
      rw [List.length_append, hlength, Nat.add_mod_left]
      exact ih

/-- By induction on how many there are, a multiple of the record size is
whole records. -/
theorem wholeRecords_of_length_mod (h : bytes.length % recordSize = 0) :
    WholeRecords bytes := by
  obtain ⟨n, hn⟩ := Nat.dvd_of_mod_eq_zero h
  induction n generalizing bytes with
  | zero =>
      obtain rfl := List.eq_nil_of_length_eq_zero hn
      exact .nil
  | succ n ih =>
      rw [Nat.mul_succ] at hn
      have hfirst : (bytes.take recordSize).length = recordSize := by
        rw [List.length_take]
        omega
      have hothers : (bytes.drop recordSize).length = recordSize * n := by
        rw [List.length_drop]
        omega
      have hmod : (bytes.drop recordSize).length % recordSize = 0 := by
        rw [hothers, Nat.mul_mod_right]
      rw [← List.take_append_drop recordSize bytes]
      exact .cons hfirst (ih hmod hothers)

/-- The bytes of a list of instructions are whole records. -/
theorem wholeRecords_encodeStream (code : List Instruction) :
    WholeRecords (encodeStream code) := by
  induction code with
  | nil => exact .nil
  | cons i code ih => exact .cons (length_encode i) ih

-- ======================================================== there and back

/-- What was written for instructions is decoded to them. -/
theorem decodeRecords_encodeStream (code : List Instruction) :
    decodeRecords (encodeStream code) = .ok code := by
  induction code with
  | nil => rfl
  | cons i code ih =>
      show decodeRecords (i.encode ++ encodeStream code) = _
      rw [decodeRecords_append (length_encode i), decode_encode, ih]

/-- Whole records that decode are what is written for their instructions. -/
theorem encodeStream_of_decodeRecords {code : List Instruction}
    (hwhole : WholeRecords bytes) (h : decodeRecords bytes = .ok code) :
    encodeStream code = bytes := by
  induction hwhole generalizing code with
  | nil =>
      cases h
      rfl
  | @cons record rest hlength _ ih =>
      rw [decodeRecords_append hlength] at h
      cases hrecord : decode record with
      | error e =>
          rw [hrecord] at h
          cases h
      | ok i =>
          rw [hrecord] at h
          cases hrest : decodeRecords rest with
          | error e =>
              rw [hrest] at h
              cases h
          | ok is =>
              rw [hrest] at h
              cases h
              show i.encode ++ encodeStream is = _
              rw [encode_of_decode hlength hrecord, ih hrest]

-- ============================================================= refusals

/-- The code that the `k`-th record of a stream begins with. -/
def codeAt (bytes : List UInt8) (k : Nat) : UInt16 :=
  codeField (bytes.drop (recordSize * k))

/-- The `k`-th record of a stream is the first with an unknown code. -/
structure FirstUnknown (bytes : List UInt8) (k : Nat) : Prop where
  within : recordSize * k < bytes.length
  unknown : codeAt bytes k ∉ Opcode.codes
  known : ∀ j < k, codeAt bytes j ∈ Opcode.codes

/-- The first code of a stream is that of its first record. -/
theorem codeAt_zero (hlength : record.length = recordSize)
    (rest : List UInt8) :
    codeAt (record ++ rest) 0 = codeField record := by
  have htwo : 2 ≤ record.length := by
    rw [hlength]
    decide
  show codeField (record ++ rest) = _
  rw [codeField, List.take_append_of_le_length htwo]
  rfl

/-- The others are those of the stream behind it. -/
theorem codeAt_succ (hlength : record.length = recordSize) (rest : List UInt8)
    (k : Nat) :
    codeAt (record ++ rest) (k + 1) = codeAt rest k := by
  unfold codeAt
  rw [Nat.mul_succ, Nat.add_comm, ← List.drop_drop, List.drop_left' hlength]

/-- A first record with an unknown code is the first with one. -/
theorem FirstUnknown.zero (hlength : record.length = recordSize)
    (hunknown : codeField record ∉ Opcode.codes) :
    FirstUnknown (record ++ rest) 0 := by
  refine ⟨?_, ?_, nofun⟩
  · rw [List.length_append, hlength]
    exact Nat.lt_of_lt_of_le (by decide) (Nat.le_add_right _ _)
  · rw [codeAt_zero hlength]
    exact hunknown

/-- Behind a known record the first unknown one is that of the rest. -/
theorem firstUnknown_succ_iff (hlength : record.length = recordSize)
    (hknown : codeField record ∈ Opcode.codes) {k : Nat} :
    FirstUnknown (record ++ rest) (k + 1) ↔ FirstUnknown rest k := by
  have hwithin : recordSize * (k + 1) < (record ++ rest).length
      ↔ recordSize * k < rest.length := by
    rw [List.length_append, hlength, Nat.mul_succ]
    omega
  constructor
  · rintro ⟨hin, hunknown, hbefore⟩
    rw [codeAt_succ hlength] at hunknown
    refine ⟨hwithin.mp hin, hunknown, fun j hj => ?_⟩
    rw [← codeAt_succ hlength rest j]
    exact hbefore (j + 1) (Nat.succ_lt_succ hj)
  · rintro ⟨hin, hunknown, hbefore⟩
    refine ⟨hwithin.mpr hin, ?_, fun j hj => ?_⟩
    · rw [codeAt_succ hlength]
      exact hunknown
    · cases j with
      | zero =>
          rw [codeAt_zero hlength]
          exact hknown
      | succ j =>
          rw [codeAt_succ hlength]
          exact hbefore j (Nat.lt_of_succ_lt_succ hj)

/-- Whole records are refused exactly for the first of them with an unknown
code. -/
theorem decodeRecords_eq_error_iff (hwhole : WholeRecords bytes) :
    decodeRecords bytes = .error e
      ↔ ∃ k, FirstUnknown bytes k ∧ e = .unknownOpcode (codeAt bytes k) := by
  induction hwhole with
  | nil =>
      exact iff_of_false nofun fun ⟨_, hfirst, _⟩ =>
        absurd hfirst.within (Nat.not_lt_zero _)
  | @cons record rest hlength _ ih =>
      rw [decodeRecords_append hlength]
      by_cases hknown : codeField record ∈ Opcode.codes
      · -- a known code: the first unknown one is in the rest
        obtain ⟨i, hi⟩ : ∃ i, decode record = .ok i := by
          cases hrecord : decode record with
          | ok i => exact ⟨i, rfl⟩
          | error e => exact absurd hknown (decode_eq_error_iff.mp hrecord).1
        have hrest : (match decodeRecords rest with
            | .error e => .error e
            | .ok is => .ok (i :: is)) = Except.error e
              ↔ decodeRecords rest = .error e := by
          cases decodeRecords rest <;> simp
        rw [hi, hrest, ih]
        constructor
        · rintro ⟨k, hfirst, rfl⟩
          refine ⟨k + 1, (firstUnknown_succ_iff hlength hknown).mpr hfirst, ?_⟩
          rw [codeAt_succ hlength]
        · rintro ⟨k, hfirst, rfl⟩
          cases k with
          | zero =>
              have hunknown := hfirst.unknown
              rw [codeAt_zero hlength] at hunknown
              exact absurd hknown hunknown
          | succ k =>
              refine ⟨k, (firstUnknown_succ_iff hlength hknown).mp hfirst, ?_⟩
              rw [codeAt_succ hlength]
      · -- an unknown code is the first one at once
        rw [decode_eq_error_iff.mpr ⟨hknown, rfl⟩]
        constructor
        · rintro ⟨⟩
          refine ⟨0, .zero hlength hknown, ?_⟩
          rw [codeAt_zero hlength]
        · rintro ⟨k, hfirst, rfl⟩
          cases k with
          | zero => rw [codeAt_zero hlength]
          | succ k =>
              have hfirstKnown := hfirst.known 0 (Nat.succ_pos k)
              rw [codeAt_zero hlength] at hfirstKnown
              exact absurd hfirstKnown hknown

-- ============================================================== streams

/-- A stream of whole records passes the check of its length. -/
theorem decodeStream_of_whole (h : WholeRecords bytes) :
    decodeStream bytes = decodeRecords bytes :=
  if_pos h.length_mod

/-- A stream decodes to instructions exactly if it is what is written for
them. -/
theorem decodeStream_eq_ok_iff {code : List Instruction} :
    decodeStream bytes = .ok code ↔ bytes = encodeStream code := by
  constructor
  · intro h
    by_cases hmod : bytes.length % recordSize = 0
    · have hwhole := wholeRecords_of_length_mod hmod
      rw [decodeStream_of_whole hwhole] at h
      exact (encodeStream_of_decodeRecords hwhole h).symm
    · rw [decodeStream, if_neg hmod] at h
      cases h
  · rintro rfl
    rw [decodeStream_of_whole (wholeRecords_encodeStream code),
      decodeRecords_encodeStream]

/-- A stream is refused exactly for its length or, if that is right, for the
first unknown code. -/
theorem decodeStream_eq_error_iff :
    decodeStream bytes = .error e
      ↔ (bytes.length % recordSize ≠ 0 ∧ e = .unevenLength bytes.length)
        ∨ (bytes.length % recordSize = 0
          ∧ ∃ k, FirstUnknown bytes k
          ∧ e = .unknownOpcode (codeAt bytes k)) := by
  by_cases hmod : bytes.length % recordSize = 0
  · have hwhole := wholeRecords_of_length_mod hmod
    rw [decodeStream_of_whole hwhole, decodeRecords_eq_error_iff hwhole]
    simp [hmod]
  · rw [decodeStream, if_neg hmod]
    simp [hmod, eq_comm]

/-- A stream is read as a list of instructions exactly if it is the stream of
that list. It is refused for its length exactly if that is not a multiple of
the record size, and otherwise exactly for the first record whose code is not
one of the 23. -/
theorem stream_bijection :
    (∀ bytes code, decodeStream bytes = .ok code ↔ bytes = encodeStream code) ∧
    (∀ bytes e, decodeStream bytes = .error e
      ↔ (bytes.length % recordSize ≠ 0 ∧ e = .unevenLength bytes.length)
        ∨ (bytes.length % recordSize = 0
          ∧ ∃ k, FirstUnknown bytes k ∧ e = .unknownOpcode (codeAt bytes k))) ∧
    Opcode.codes.Nodup ∧ Opcode.codes.length = 23 :=
  ⟨fun _ _ => decodeStream_eq_ok_iff, fun _ _ => decodeStream_eq_error_iff,
    Opcode.nodup_codes, Opcode.length_codes⟩

/-- Behind a known record, the code of the second is the one that is
reported. -/
example : decodeStream ({ opcode := .halt : Instruction }.encode
    ++ [0x0C, 0x00, 0, 0, 0, 0, 0, 0, 0, 0])
      = .error (.unknownOpcode 0x000C) := by rfl

end Instruction

end StackMachine
