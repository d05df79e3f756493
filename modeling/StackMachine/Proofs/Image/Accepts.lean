/-
What accepted bytes spell. `Accepts r bytes a` says that a reader gives `a`
for all of `bytes`; it is the converse of `Reads`, and is taken apart along
the same `do` blocks and loops. A first reader that is `Delimited` has taken
its bytes from the front, so what is left belongs to the rest of the block.

Every part of an image turns out to have one spelling, the one that is
written for it, except decimal numbers: a mantissa and a scale are accepted
whether or not they are reduced (`Stored`). `stored_of_decode` says this of the
whole image, and that its words fit.
-/
import Mathlib.Data.List.Forall2
import StackMachine.Proofs.Image.Delimited

namespace StackMachine.Image

variable {α β : Type}

/-- The reader gives `a` for all of `bytes`, at some place. -/
def Accepts (r : Reader α) (bytes : List UInt8) (a : α) : Prop :=
  ∃ offset offset', r ⟨offset, bytes⟩ = .ok (a, ⟨offset', []⟩)

/-- What is read whatever follows is read when nothing follows. -/
theorem Reads.accepts {r : Reader α} {bytes : List UInt8} {a : α}
    (h : Reads r bytes a) :
    Accepts r bytes a := by
  have hrun := h 0 []
  rw [List.append_nil] at hrun
  exact ⟨_, _, hrun⟩

-- ======================================================== decomposition

/-- An answer that takes no bytes is given for none. -/
theorem accepts_pure {a b : α} {bytes : List UInt8}
    (h : Accepts (pure a) bytes b) :
    bytes = [] ∧ a = b := by
  obtain ⟨offset, offset', hrun⟩ := h
  cases hrun
  exact ⟨rfl, rfl⟩

theorem not_accepts_refuse {e : ImageError} {bytes : List UInt8} {a : α} :
    ¬ Accepts (refuse e) bytes a := by
  rintro ⟨offset, offset', hrun⟩
  cases hrun

theorem accepts_here {f : Nat → Reader α} {bytes : List UInt8} {a : α}
    (h : Accepts (here >>= f) bytes a) :
    ∃ place, Accepts (f place) bytes a := by
  obtain ⟨offset, offset', hrun⟩ := h
  exact ⟨offset, offset, offset', hrun⟩

/-- What a delimited reader and another one accept together falls into a front
for the first and a back for the second. -/
theorem accepts_bind {r : Reader α} (hr : Delimited r) {f : α → Reader β}
    {bytes : List UInt8} {b : β} (h : Accepts (r >>= f) bytes b) :
    ∃ a front back,
      bytes = front ++ back ∧ Accepts r front a ∧ Accepts (f a) back b := by
  obtain ⟨offset, offset', hrun⟩ := h
  obtain ⟨a, ⟨place, rest⟩, hfirst, hthen⟩ := exists_of_bind hrun
  obtain ⟨front, hfront, hdelimits⟩ := hr _ _ _ hfirst
  exact ⟨a, front, rest, hfront, hdelimits.reads.accepts, place,
    offset', hthen⟩

/-- What is made of an answer was made of one. -/
theorem accepts_map {r : Reader α} (hr : Delimited r) {f : α → β}
    {bytes : List UInt8} {b : β}
    (h : Accepts (r >>= fun a => pure (f a)) bytes b) :
    ∃ a, Accepts r bytes a ∧ f a = b := by
  obtain ⟨a, front, back, rfl, hfirst, hthen⟩ := accepts_bind hr h
  obtain ⟨rfl, rfl⟩ := accepts_pure hthen
  rw [List.append_nil]
  exact ⟨a, hfirst, rfl⟩

/-- Bytes that are taken are answered as they are. -/
theorem accepts_take {n : Nat} {bytes a : List UInt8}
    (h : Accepts (take n) bytes a) :
    bytes = a ∧ a.length = n := by
  obtain ⟨offset, offset', hrun⟩ := h
  unfold take at hrun
  by_cases hlength : (bytes.take n).length = n
  · rw [if_pos hlength] at hrun
    simp only [Except.ok.injEq, Prod.mk.injEq, Cursor.mk.injEq] at hrun
    obtain ⟨rfl, -, hrest⟩ := hrun
    have hall := List.take_append_drop n bytes
    rw [hrest, List.append_nil] at hall
    exact ⟨hall.symm, hlength⟩
  · rw [if_neg hlength] at hrun
    cases hrun

/-- A loop accepts one stretch after another, one for each part. -/
theorem accepts_many {part : Reader α} (hpart : Delimited part) {n : Nat}
    {done parts : Array α} {bytes : List UInt8}
    (h : Accepts (many part n done) bytes parts) :
    ∃ chunks items, bytes = chunks.flatten ∧ parts = done ++ items.toArray
      ∧ items.length = n
      ∧ List.Forall₂ (Accepts part) chunks items := by
  induction n generalizing done bytes with
  | zero =>
      obtain ⟨rfl, rfl⟩ := accepts_pure h
      exact ⟨[], [], rfl, by simp, rfl, .nil⟩
  | succ n ih =>
      obtain ⟨a, front, back, rfl, hfirst, hthen⟩ := accepts_bind hpart h
      obtain ⟨chunks, items, rfl, rfl, rfl, hall⟩ := ih hthen
      exact ⟨front :: chunks, a :: items, rfl, by simp, rfl, .cons hfirst hall⟩

-- ======================================================= words and texts

/-- A byte has one spelling. -/
theorem accepts_byte {bytes : List UInt8} {b : UInt8}
    (h : Accepts byte bytes b) :
    bytes = [b] := by
  obtain ⟨a, htake, rfl⟩ := accepts_map (.take 1) h
  obtain ⟨rfl, hlength⟩ := accepts_take htake
  obtain ⟨b, rfl⟩ := List.length_eq_one_iff.mp hlength
  simp [Bytes.toNat]

/-- A word that is read is written with the same four bytes, and fits them. -/
theorem accepts_word {bytes : List UInt8} {n : Nat}
    (h : Accepts readWord bytes n) :
    bytes = Bytes.ofNat 4 n ∧ n < UInt32.size := by
  obtain ⟨a, htake, rfl⟩ := accepts_map (.take 4) h
  obtain ⟨rfl, hlength⟩ := accepts_take htake
  have hself := Bytes.ofNat_toNat bytes
  have hlt := Bytes.toNat_lt bytes
  rw [hlength] at hself hlt
  exact ⟨hself.symm, hlt⟩

/-- A section is its count and a chunk for each part, which is accepted by
itself. -/
theorem accepts_counted {part : Reader α} (hpart : Delimited part)
    {bytes : List UInt8} {parts : Array α}
    (h : Accepts (counted part) bytes parts) :
    parts.size < UInt32.size
      ∧ ∃ chunks, bytes = Bytes.ofNat 4 parts.size ++ chunks.flatten
      ∧ List.Forall₂ (Accepts part) chunks parts.toList := by
  obtain ⟨n, front, back, rfl, hword, hmany⟩ := accepts_bind delimited_word h
  obtain ⟨rfl, hlt⟩ := accepts_word hword
  obtain ⟨chunks, items, rfl, rfl, rfl, hall⟩ := accepts_many hpart hmany
  simp only [Array.empty_append, List.size_toArray]
  exact ⟨hlt, chunks, rfl, hall⟩

/-- A section of parts with one spelling has one spelling. -/
theorem accepts_section {part : Reader α} (hpart : Delimited part)
    {spell : α → List UInt8} {fits : α → Prop}
    (hspell : ∀ bytes a, Accepts part bytes a → bytes = spell a ∧ fits a)
    {bytes : List UInt8} {parts : Array α}
    (h : Accepts (counted part) bytes parts) :
    parts.size < UInt32.size ∧ bytes = sectionBytes spell parts
      ∧ ∀ a ∈ parts, fits a := by
  obtain ⟨hsize, chunks, rfl, hall⟩ := accepts_counted hpart h
  have hparts : ∀ {chunks : List (List UInt8)} {items : List α},
      List.Forall₂ (Accepts part) chunks items →
        chunks.flatten = items.flatMap spell ∧ ∀ a ∈ items, fits a := by
    intro chunks items hall
    induction hall with
    | nil => exact ⟨rfl, by simp⟩
    | cons hfirst _ ih =>
        obtain ⟨rfl, hfits⟩ := hspell _ _ hfirst
        obtain ⟨hbytes, hrest⟩ := ih
        exact ⟨by simp [hbytes], List.forall_mem_cons.mpr ⟨hfits, hrest⟩⟩
  obtain ⟨hbytes, hfits⟩ := hparts hall
  refine ⟨hsize, ?_, fun a ha => hfits a (Array.mem_toList_iff.mpr ha)⟩
  rw [hbytes, sectionBytes]

/-- A text is written with the bytes it was read from, since UTF-8 has one
spelling for each character. -/
theorem accepts_text {bytes : List UInt8} {s : String}
    (h : Accepts readText bytes s) :
    bytes = textBytes s ∧ (utf8 s).length < UInt32.size := by
  obtain ⟨n, front, back, rfl, hword, hplaced⟩ := accepts_bind delimited_word h
  obtain ⟨rfl, hlt⟩ := accepts_word hword
  obtain ⟨place, hrest⟩ := accepts_here hplaced
  obtain ⟨a, front, back, rfl, htake, hmatch⟩ := accepts_bind (.take n) hrest
  obtain ⟨rfl, rfl⟩ := accepts_take htake
  unfold String.fromUTF8? at hmatch
  by_cases hvalid : ByteArray.IsValidUTF8 ⟨front.toArray⟩
  · rw [dif_pos hvalid] at hmatch
    obtain ⟨rfl, rfl⟩ := accepts_pure hmatch
    have hbytes : utf8 (String.fromUTF8 ⟨front.toArray⟩ hvalid) = front := rfl
    rw [textBytes, hbytes, List.append_nil]
    exact ⟨rfl, hlt⟩
  · rw [dif_neg hvalid] at hmatch
    exact absurd hmatch not_accepts_refuse

-- ================================================================ parts

/-- The bytes that a constant is read from: its own, or any mantissa and scale
of a decimal. -/
inductive Stored : List UInt8 → Value → Prop
  | plain {v : Value} (hkind : v.kind ≠ .decimal)
    (hfits : ∀ w ∈ constantWords v, w.2 < UInt32.size) :
    Stored (constantBytes v) v
  | decimal {mantissa : List UInt8} {scale : UInt8} {d : Decimal}
    (hlength : mantissa.length = 16)
    (hd : Decimal.new? (Wide.wrap (Bytes.toNat mantissa)) scale.toNat
      = some d) :
    Stored (Kind.decimal.tag :: (mantissa ++ [scale])) (.decimal d)

theorem Stored.fits {bytes : List UInt8} {v : Value} (h : Stored bytes v) :
    ∀ w ∈ constantWords v, w.2 < UInt32.size := by
  cases h with
  | plain hkind hfits => exact hfits
  | decimal => simp [constantWords]

/-- A payload that is the one written for its value is stored, unless the
value is a decimal number. -/
theorem Stored.of_payload {bytes : List UInt8} (v : Value)
    (hself : payloadBytes v = bytes) (hkind : v.kind ≠ .decimal)
    (hfits : ∀ w ∈ constantWords v, w.2 < UInt32.size) :
    Stored (v.kind.tag :: bytes) v := by
  rw [← hself]
  exact .plain hkind hfits

/-- Every payload has one spelling but that of a decimal number, which is
accepted in any scale it fits. -/
theorem accepts_payload {tag : UInt8} {kind : Kind} {bytes : List UInt8}
    {v : Value} (h : Accepts (payload tag kind) bytes v) :
    Stored (kind.tag :: bytes) v := by
  cases kind with
  | null =>
      obtain ⟨rfl, rfl⟩ := accepts_pure h
      exact .of_payload .null rfl (by decide) (by simp [constantWords])
  | int =>
      obtain ⟨a, htake, rfl⟩ := accepts_map (.take 8) h
      obtain ⟨rfl, hlength⟩ := accepts_take htake
      refine .of_payload (.int _) ?_ (by simp [Value.kind])
        (by simp [constantWords])
      rw [payloadBytes, Bytes.ofInt_ofInt_int64, Bytes.ofInt_toInt hlength]
  | float =>
      obtain ⟨a, htake, rfl⟩ := accepts_map (.take 8) h
      obtain ⟨rfl, hlength⟩ := accepts_take htake
      refine .of_payload (.float _) ?_ (by simp [Value.kind])
        (by simp [constantWords])
      rw [payloadBytes, Bytes.ofNat_uint64, ← hlength, Bytes.ofNat_toNat]
  | decimal =>
      obtain ⟨mantissa, front, back, rfl, htake, hplaced⟩ :=
        accepts_bind (.take 16) h
      obtain ⟨rfl, hlength⟩ := accepts_take htake
      obtain ⟨place, hrest⟩ := accepts_here hplaced
      obtain ⟨scale, front', back, rfl, hbyte, hmatch⟩ :=
        accepts_bind delimited_byte hrest
      obtain rfl := accepts_byte hbyte
      cases hd : Decimal.new? (Wide.wrap (Bytes.toNat front)) scale.toNat with
      | some d =>
          rw [hd] at hmatch
          obtain ⟨rfl, rfl⟩ := accepts_pure hmatch
          rw [List.append_nil]
          exact .decimal hlength hd
      | none =>
          rw [hd] at hmatch
          -- a scale out of range is refused
          exact absurd hmatch not_accepts_refuse
  | bool =>
      obtain ⟨place, hplaced⟩ := accepts_here h
      obtain ⟨b, front, back, rfl, hbyte, hmatch⟩ :=
        accepts_bind delimited_byte hplaced
      obtain rfl := accepts_byte hbyte
      split at hmatch
      · next hfalse =>
        obtain ⟨rfl, rfl⟩ := accepts_pure hmatch
        rw [hfalse]
        exact .of_payload (.bool false) rfl (by decide)
          (by simp [constantWords])
      · split at hmatch
        · next htrue =>
          obtain ⟨rfl, rfl⟩ := accepts_pure hmatch
          rw [htrue]
          exact .of_payload (.bool true) rfl (by decide)
            (by simp [constantWords])
        · -- no other byte is a truth value
          exact absurd hmatch not_accepts_refuse
  | string =>
      obtain ⟨s, htext, rfl⟩ := accepts_map delimited_text h
      obtain ⟨rfl, hlt⟩ := accepts_text htext
      refine .of_payload (.string s) rfl (by simp [Value.kind]) ?_
      simpa [constantWords, textWord] using hlt

/-- A constant was stored. -/
theorem accepts_constant {bytes : List UInt8} {v : Value}
    (h : Accepts readConstant bytes v) :
    Stored bytes v := by
  obtain ⟨place, hplaced⟩ := accepts_here h
  obtain ⟨tag, front, back, rfl, hbyte, hmatch⟩ :=
    accepts_bind delimited_byte hplaced
  obtain rfl := accepts_byte hbyte
  cases hkind : Kind.ofTag? tag with
  | some kind =>
      rw [hkind] at hmatch
      rw [← Kind.tag_of_ofTag? hkind]
      exact accepts_payload hmatch
  | none =>
      rw [hkind] at hmatch
      exact absurd hmatch not_accepts_refuse

/-- A function is written with the bytes it was read from, and its words
fit. -/
theorem accepts_function {bytes : List UInt8} {f : Function}
    (h : Accepts readFunction bytes f) :
    bytes = functionBytes f ∧ ∀ w ∈ functionWords f, w.2 < UInt32.size := by
  obtain ⟨name, front₁, back₁, rfl, hname, h₁⟩ := accepts_bind delimited_text h
  obtain ⟨entry, front₂, back₂, rfl, hentry, h₂⟩ :=
    accepts_bind delimited_word h₁
  obtain ⟨params, front₃, back₃, rfl, hparams, h₃⟩ :=
    accepts_bind delimited_word h₂
  obtain ⟨locals, hlocals, rfl⟩ := accepts_map delimited_word h₃
  obtain ⟨rfl, hname'⟩ := accepts_text hname
  obtain ⟨rfl, hentry'⟩ := accepts_word hentry
  obtain ⟨rfl, hparams'⟩ := accepts_word hparams
  obtain ⟨rfl, hlocals'⟩ := accepts_word hlocals
  constructor
  · simp [functionBytes]
  · simp [functionWords, textWord, hname', hentry', hparams', hlocals']

/-- An instruction is written with the bytes it was read from. -/
theorem accepts_instruction {bytes : List UInt8} {i : Instruction}
    (h : Accepts readInstruction bytes i) : bytes = i.encode := by
  obtain ⟨record, front, back, rfl, htake, hmatch⟩ :=
    accepts_bind (.take Instruction.recordSize) h
  obtain ⟨rfl, hlength⟩ := accepts_take htake
  cases hdecode : Instruction.decode front with
  | error e =>
      rw [hdecode] at hmatch
      exact absurd hmatch not_accepts_refuse
  | ok j =>
      rw [hdecode] at hmatch
      obtain ⟨rfl, rfl⟩ := accepts_pure hmatch
      rw [List.append_nil, Instruction.encode_of_decode hlength hdecode]

/-- The two bytes of the version that is accepted are those that are
written. -/
theorem accepts_version {bytes : List UInt8}
    (h : Accepts (do
      let bytes ← take 2
      let v := UInt16.ofNat (Bytes.toNat bytes)
      if v ≠ version then refuse (.unsupportedVersion v)) bytes ()) :
    bytes = Bytes.ofNat 2 version.toNat := by
  obtain ⟨a, front, back, rfl, htake, hif⟩ := accepts_bind (.take 2) h
  obtain ⟨rfl, hlength⟩ := accepts_take htake
  dsimp only at hif
  split at hif
  · exact absurd hif not_accepts_refuse
  · next hversion =>
    obtain ⟨rfl, -⟩ := accepts_pure hif
    have hself := Bytes.ofNat_toNat front
    rw [← not_not.mp hversion, Bytes.ofNat_uint16, ← hlength, hself,
      List.append_nil]

/-- A header has one spelling. -/
theorem accepts_header {bytes : List UInt8} (h : Accepts readHeader bytes ()) :
    bytes = magic ++ Bytes.ofNat 2 version.toNat := by
  obtain ⟨start, front, back, rfl, htake, hif⟩ := accepts_bind (.take 4) h
  obtain ⟨rfl, -⟩ := accepts_take htake
  dsimp only at hif
  split at hif
  · obtain ⟨_, _, _, _, hrefuse, -⟩ := accepts_bind (.refuse _) hif
    exact absurd hrefuse not_accepts_refuse
  · next hmagic => rw [not_not.mp hmagic, accepts_version hif]

-- =============================================================== images

/-- Accepted bytes are the image of their program, up to how decimal numbers
are stored in it; and that image can be written. -/
theorem stored_of_decode {bytes : List UInt8} {p : Program}
    (h : Program.decode bytes = .ok p) :
    Fits p ∧ ∃ chunks, List.Forall₂ Stored chunks p.constants.toList
      ∧ bytes = magic ++ Bytes.ofNat 2 version.toNat ++ Bytes.ofNat 4 p.entry
        ++ (Bytes.ofNat 4 p.constants.size ++ chunks.flatten)
        ++ sectionBytes functionBytes p.functions
          ++ sectionBytes Instruction.encode p.code := by
  have hparts := (delimits_of_decode h).reads.accepts
  -- part by part, the bytes that were taken for it and those behind
  obtain ⟨_, front₁, back₁, rfl, hheader, h₁⟩ :=
    accepts_bind delimited_header hparts
  obtain ⟨entry, front₂, back₂, rfl, hentry, h₂⟩ :=
    accepts_bind delimited_word h₁
  obtain ⟨constants, front₃, back₃, rfl, hconstants, h₃⟩ :=
    accepts_bind (delimited_counted delimited_constant) h₂
  obtain ⟨functions, front₄, back₄, rfl, hfunctions, h₄⟩ :=
    accepts_bind (delimited_counted delimited_function) h₃
  obtain ⟨code, hcode, hp⟩ :=
    accepts_map (delimited_counted delimited_instruction) h₄
  simp only [Parts.ofProgram, Parts.mk.injEq] at hp
  obtain ⟨rfl, rfl, rfl, rfl⟩ := hp
  obtain rfl := accepts_header hheader
  obtain ⟨rfl, hfitsEntry⟩ := accepts_word hentry
  obtain ⟨hconstantCount, chunks, rfl, hchunks⟩ :=
    accepts_counted delimited_constant hconstants
  obtain ⟨hfunctionCount, rfl, hfitsFunctions⟩ :=
    accepts_section delimited_function (fun _ _ hf => accepts_function hf)
      hfunctions
  have hinstruction : ∀ bytes i, Accepts readInstruction bytes i →
      bytes = i.encode ∧ True :=
    fun _ _ hi => ⟨accepts_instruction hi, trivial⟩
  obtain ⟨hinstructionCount, rfl, -⟩ :=
    accepts_section delimited_instruction hinstruction hcode
  have hstored := hchunks.imp fun _ _ hv => accepts_constant hv
  have hfits : ∀ {chunks vs}, List.Forall₂ Stored chunks vs →
      ∀ v ∈ vs, ∀ w ∈ constantWords v, w.2 < UInt32.size := by
    intro chunks vs hall
    induction hall with
    | nil => simp
    | cons hfirst _ ih => exact List.forall_mem_cons.mpr ⟨hfirst.fits, ih⟩
  refine ⟨⟨hfitsEntry, hconstantCount, ?_, hfunctionCount, hfitsFunctions,
    hinstructionCount⟩, chunks, hstored, by simp⟩
  intro v hv
  exact hfits hstored v (Array.mem_toList_iff.mpr hv)

end StackMachine.Image
