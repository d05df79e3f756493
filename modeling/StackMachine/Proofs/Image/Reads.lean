/-
Readers against the bytes of what they read. `Reads r bytes a` says that a
reader takes exactly these bytes from the front, whatever follows them, and
gives `a`. It composes along `do` blocks and loops, so each part of an image
is shown to be read from its own bytes once, in the order in which the
sections nest: words and texts, payloads, constants, functions, records.
-/
import StackMachine.Proofs.Decimal.Canonical
import StackMachine.Proofs.Image.Fields
import StackMachine.Proofs.Image.Records

namespace StackMachine.Image

/-- The reader takes exactly `bytes`, whatever follows, and gives `a`. -/
def Reads (r : Reader α) (bytes : List UInt8) (a : α) : Prop :=
  ∀ offset rest,
    r ⟨offset, bytes ++ rest⟩ = .ok (a, ⟨offset + bytes.length, rest⟩)

namespace Reads

-- ========================================================= composition

theorem pure (a : α) : Reads (pure a) [] a := fun _ _ => rfl

/-- What follows a reader starts where that one ended. -/
theorem run_bind {r : Reader α} {bytes : List UInt8} {a : α}
    (h : Reads r bytes a) (f : α → Reader β) (offset : Nat)
    (rest : List UInt8) :
    (r >>= f) ⟨offset, bytes ++ rest⟩ = f a ⟨offset + bytes.length, rest⟩ := by
  show (r ⟨offset, bytes ++ rest⟩ >>= fun x => f x.1 x.2) = _
  rw [h]
  rfl

theorem bind {r : Reader α} {front back : List UInt8} {a : α}
    {f : α → Reader β} {b : β} (h : Reads r front a)
    (hf : Reads (f a) back b) : Reads (r >>= f) (front ++ back) b := by
  intro offset rest
  rw [List.append_assoc, h.run_bind, hf, List.length_append, Nat.add_assoc]

/-- The rest may take nothing. -/
theorem bind_nil {r : Reader α} {bytes : List UInt8} {a : α} {f : α → Reader β}
    {b : β} (h : Reads r bytes a) (hf : Reads (f a) [] b) :
    Reads (r >>= f) bytes b := by
  have hbind := h.bind hf
  rwa [List.append_nil] at hbind

theorem map {r : Reader α} {bytes : List UInt8} {a : α} (h : Reads r bytes a)
    (f : α → β) :
    Reads (r >>= fun a => Pure.pure (f a)) bytes (f a) :=
  h.bind_nil (f := fun a => Pure.pure (f a)) (Reads.pure (f a))

/-- Where a part starts matters only for its errors. -/
theorem here_bind {f : Nat → Reader α} {bytes : List UInt8} {a : α}
    (h : ∀ offset, Reads (f offset) bytes a) : Reads (here >>= f) bytes a := by
  intro offset rest
  exact h offset offset rest

theorem take {bytes : List UInt8} {n : Nat} (h : bytes.length = n) :
    Reads (Image.take n) bytes bytes := by
  intro offset rest
  unfold Image.take
  simp [← h]

/-- By induction on the parts, a loop reads them from their bytes in a row. -/
theorem many {part : Reader α} {bytes : α → List UInt8} (parts : List α)
    (done : Array α) (h : ∀ a ∈ parts, Reads part (bytes a) a) :
    Reads (Image.many part parts.length done) (parts.flatMap bytes)
      (done ++ parts.toArray) := by
  induction parts generalizing done with
  | nil =>
      rw [show done ++ [].toArray = done from Array.append_empty]
      exact Reads.pure done
  | cons a parts ih =>
      have hrest :=
        ih (done.push a) fun b hb => h b (List.mem_cons_of_mem a hb)
      rw [List.toArray_cons, ← Array.append_assoc, Array.append_singleton]
      exact (h a List.mem_cons_self).bind hrest

end Reads

-- ======================================================= words and texts

theorem reads_byte (b : UInt8) : Reads byte [b] b := by
  have h :=
    (Reads.take (rfl : [b].length = 1)).map
      fun bytes => UInt8.ofNat (Bytes.toNat bytes)
  rwa [show UInt8.ofNat (Bytes.toNat [b]) = b by simp [Bytes.toNat]] at h

/-- A word is read from the four bytes it is written with, if it fits them. -/
theorem reads_word {n : Nat} (h : n < UInt32.size) :
    Reads readWord (Bytes.ofNat 4 n) n := by
  have hread := (Reads.take (Bytes.length_ofNat 4 n)).map Bytes.toNat
  rwa [Bytes.toNat_ofNat h] at hread

/-- A section is read from the bytes of its parts, if each part is. -/
theorem reads_section {part : Reader α} {bytes : α → List UInt8}
    {parts : Array α} (hsize : parts.size < UInt32.size)
    (h : ∀ a ∈ parts, Reads part (bytes a) a) :
    Reads (counted part) (sectionBytes bytes parts) parts := by
  have hmany :=
    Reads.many parts.toList #[] fun a ha => h a (Array.mem_def.mpr ha)
  rw [Array.length_toList, Array.toArray_toList, Array.empty_append] at hmany
  exact (reads_word hsize).bind hmany

/-- The bytes of a text are valid UTF-8 and give it back. -/
theorem fromUTF8?_utf8 (s : String) :
    String.fromUTF8? ⟨(utf8 s).toArray⟩ = some s := by
  unfold String.fromUTF8?
  exact dif_pos s.isValidUTF8

/-- A text is read from its length and its bytes, if the length fits. -/
theorem reads_text {s : String} (h : (utf8 s).length < UInt32.size) :
    Reads readText (textBytes s) s := by
  refine (reads_word h).bind (Reads.here_bind fun offset => ?_)
  refine (Reads.take rfl).bind_nil ?_
  rw [fromUTF8?_utf8]
  exact Reads.pure s

-- ================================================================ parts

/-- A decimal number is read from its mantissa and scale, which are
reduced already. -/
theorem reads_decimal (d : Decimal) (tag : UInt8) :
    Reads (payload tag .decimal) (payloadBytes (.decimal d)) (.decimal d) := by
  have hscale : (UInt8.ofNat d.scale).toNat = d.scale := by
    have hle : d.scale ≤ 28 := d.scale_le
    rw [UInt8.toNat_ofNat']
    omega
  have hself :
      Decimal.new? (Wide.wrap (Bytes.toNat (Bytes.ofInt 16 d.mantissa)))
        (UInt8.ofNat d.scale).toNat = some d := by
    rw [show d.mantissa = d.wide.val from rfl, Bytes.wrap_ofInt_wide, hscale,
      Decimal.new?_self]
  refine (Reads.take (Bytes.length_ofInt 16 d.mantissa)).bind
    (Reads.here_bind fun offset => ?_)
  refine (reads_byte (UInt8.ofNat d.scale)).bind_nil ?_
  rw [hself]
  exact Reads.pure (Value.decimal d)

/-- A value is read from its payload by the reader for its kind. -/
theorem reads_payload {v : Value} (tag : UInt8)
    (h : ∀ w ∈ constantWords v, w.2 < UInt32.size) :
    Reads (payload tag v.kind) (payloadBytes v) v := by
  cases v with
  | null => exact Reads.pure Value.null
  | int n =>
      have hread :=
        (Reads.take (Bytes.length_ofInt 8 n.toInt)).map fun bytes =>
          Value.int (Int64.ofInt (Bytes.toInt bytes))
      rwa [Bytes.ofInt_toInt_int64] at hread
  | float x =>
      have hread :=
        (Reads.take (Bytes.length_ofNat 8 x.bits.toNat)).map fun bytes =>
          Value.float ⟨UInt64.ofNat (Bytes.toNat bytes)⟩
      rwa [Bytes.toNat_ofNat x.bits.toNat_lt, UInt64.ofNat_toNat] at hread
  | decimal d => exact reads_decimal d tag
  | bool b =>
      refine Reads.here_bind fun offset => ?_
      cases b with
      | false => exact (reads_byte 0).bind_nil (Reads.pure (Value.bool false))
      | true => exact (reads_byte 1).bind_nil (Reads.pure (Value.bool true))
  | string s => exact (reads_text (h _ List.mem_cons_self)).map Value.string

/-- A constant is read from its tag and payload. -/
theorem reads_constant {v : Value}
    (h : ∀ w ∈ constantWords v, w.2 < UInt32.size) :
    Reads readConstant (constantBytes v) v := by
  refine Reads.here_bind fun offset => ?_
  refine (reads_byte v.kind.tag).bind ?_
  rw [Kind.ofTag?_tag]
  exact reads_payload v.kind.tag h

/-- A function is read from its name and its three words. -/
theorem reads_function {f : Function}
    (h : ∀ w ∈ functionWords f, w.2 < UInt32.size) :
    Reads readFunction (functionBytes f) f := by
  simp only [functionWords, List.forall_mem_cons] at h
  obtain ⟨hname, hentry, hparams, hlocals, -⟩ := h
  unfold functionBytes
  rw [List.append_assoc, List.append_assoc]
  exact (reads_text hname).bind <| (reads_word hentry).bind <|
    (reads_word hparams).bind <|
      (reads_word hlocals).map
        fun locals => (⟨f.name, f.entry, f.params, locals⟩ : Function)

theorem reads_instruction (i : Instruction) :
    Reads readInstruction i.encode i := by
  refine (Reads.take i.length_encode).bind_nil ?_
  rw [Instruction.decode_encode]
  exact Reads.pure i

/-- The header is read from the magic bytes and the version. -/
theorem reads_header :
    Reads readHeader (magic ++ Bytes.ofNat 2 version.toNat) () := by
  unfold readHeader
  refine (Reads.take (rfl : magic.length = 4)).bind ?_
  exact (Reads.take (Bytes.length_ofNat 2 version.toNat)).bind_nil
    (Reads.pure ())

end StackMachine.Image
