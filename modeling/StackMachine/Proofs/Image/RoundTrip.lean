/-
The round trip through bytes: a program can be written as an image unless one
of its words is too large, and the image is read as that program. Decimals
survive because they are kept reduced, texts because they are UTF-8, and the
table because a program always has its entry function.
-/
import StackMachine.Proofs.Image.Reads

namespace StackMachine.Image

/-- A program is made of its own parts. -/
theorem new_self (p : Program) :
    Program.new p.constants p.code p.functions p.entry = .ok p := by
  have hne : p.functions.size ≠ 0 :=
    Nat.ne_of_gt (Nat.zero_lt_of_lt p.entry_lt)
  rw [Program.new, if_neg hne, dif_pos p.entry_lt]

/-- What the words of a program being small enough says about its parts. -/
structure Fits (p : Program) : Prop where
  entry : p.entry < UInt32.size
  constantCount : p.constants.size < UInt32.size
  constants : ∀ v ∈ p.constants, ∀ w ∈ constantWords v, w.2 < UInt32.size
  functionCount : p.functions.size < UInt32.size
  functions : ∀ f ∈ p.functions, ∀ w ∈ functionWords f, w.2 < UInt32.size
  instructionCount : p.code.size < UInt32.size

/-- A program whose words fit has each of its counts among them. -/
theorem fits_of_words {p : Program} (h : ∀ w ∈ words p, w.2 < UInt32.size) :
    Fits p where
  entry := h (.entryIndex, p.entry) (by simp [words])
  constantCount := h (.constantCount, p.constants.size) (by simp [words])
  constants v hv w hw := h w (by
    simp only [words, List.mem_append, List.mem_flatMap]
    exact .inl (.inl (.inl (.inr ⟨v, Array.mem_def.mp hv, hw⟩))))
  functionCount := h (.functionCount, p.functions.size) (by simp [words])
  functions f hf w hw := h w (by
    simp only [words, List.mem_append, List.mem_flatMap]
    exact .inl (.inr ⟨f, Array.mem_def.mp hf, hw⟩))
  instructionCount := h (.instructionCount, p.code.size) (by simp [words])

/-- The bytes of a program that fits are decoded to it. -/
theorem decode_imageBytes {p : Program} (h : Fits p) :
    Program.decode (imageBytes p) = .ok p := by
  have hconstants :=
    reads_section h.constantCount fun v hv => reads_constant (h.constants v hv)
  have hfunctions :=
    reads_section h.functionCount fun f hf => reads_function (h.functions f hf)
  have hcode := reads_section h.instructionCount fun i _ => reads_instruction i
  have hbytes : imageBytes p = (magic ++ Bytes.ofNat 2 version.toNat)
      ++ (Bytes.ofNat 4 p.entry
        ++ (sectionBytes constantBytes p.constants
        ++ (sectionBytes functionBytes p.functions
        ++ (sectionBytes Instruction.encode p.code ++ [])))) := by
    simp [imageBytes]
  unfold Program.decode StateT.run' readProgram
  rw [hbytes, reads_header.run_bind, (reads_word h.entry).run_bind,
    hconstants.run_bind, hfunctions.run_bind, hcode.run_bind, new_self]
  rfl

/-- Whatever is written is decoded to what it was written for. -/
theorem decode_of_encode {p : Program} {bytes : List UInt8}
    (h : p.encode = .ok bytes) :
    Program.decode bytes = .ok p := by
  rw [encode_eq_written] at h
  obtain ⟨hfit, rfl⟩ := written_eq_ok_iff.mp h
  exact decode_imageBytes (fits_of_words hfit)

/-- Writing an image is refused exactly for a word that does not fit 32 bits,
and names the first; an image that is written is read as the program it was
written for. -/
theorem encode_round_trip (p : Program) :
    ((∃ e, p.encode = .error e) ↔ ∃ w ∈ words p, UInt32.size ≤ w.2) ∧
    (∀ field n, p.encode = .error ⟨field, n⟩ ↔
      UInt32.size ≤ n
        ∧ ∃ before after, words p = before ++ (field, n) :: after ∧
        ∀ w ∈ before, w.2 < UInt32.size) ∧
    ∀ bytes, p.encode = .ok bytes → Program.decode bytes = .ok p := by
  rw [encode_eq_written]
  refine ⟨exists_written_error_iff, fun field n => written_eq_error_iff, ?_⟩
  intro bytes h
  obtain ⟨hfit, rfl⟩ := written_eq_ok_iff.mp h
  exact decode_imageBytes (fits_of_words hfit)

/-- A program with a negative decimal, a text of two bytes and a jump to
nowhere. -/
def mixed : Program where
  constants :=
    #[.decimal ⟨-1, 1, by decide, by decide, by decide⟩,
      .string "é", .bool true]
  code := #[{ opcode := .jump, operand := -1 }]
  functions := #[⟨"main", 0, 1, 2⟩]
  entry := 0
  entry_lt := Nat.zero_lt_one

/-- The image of that program. -/
def mixedImage : List UInt8 :=
  [84, 65, 82, 78, 1, 0, 0, 0, 0, 0]
    ++ [3, 0, 0, 0] ++ 3 :: List.replicate 16 255 ++ [1]
      ++ [5, 2, 0, 0, 0, 195, 169] ++ [4, 1]
    ++ [1, 0, 0, 0]
      ++ [4, 0, 0, 0, 109, 97, 105, 110, 0, 0, 0, 0, 1, 0, 0, 0, 2, 0, 0, 0]
    ++ [1, 0, 0, 0] ++ [32, 0, 255, 255, 255, 255, 0, 0, 0, 0]

/-- The program is written as that image and decoded from it. -/
theorem encode_mixed :
    mixed.encode = .ok mixedImage ∧ Program.decode mixedImage = .ok mixed := by
  have hencode : mixed.encode = .ok mixedImage := rfl
  exact ⟨hencode, (encode_round_trip mixed).2.2 mixedImage hencode⟩

end StackMachine.Image
