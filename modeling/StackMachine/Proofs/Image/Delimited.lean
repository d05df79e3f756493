/-
Images say where they end. A reader is `Delimited` if, whenever it accepts
bytes, it took some of them from the front, takes exactly those whatever
follows them, and runs out of bytes on any shorter part of them. This is a
property of readers and not of what they read: it holds of `take`, passes
through `do` blocks and loops, and so holds of everything up to the last
instruction of an image.

Two things follow. Accepted bytes are the bytes of the parts and nothing else
(`delimits_of_decode`), and no accepted image is the start of another: cut
short it is refused for its end, and with more behind it for what is left
over.

The offset that `here` gives reaches only errors, and `Delimited.placed` is
where that is used.
-/
import StackMachine.Proofs.Image.RoundTrip

namespace StackMachine.Image

variable {α β : Type}

-- ======================================================== the judgement

/-- On any shorter part of `bytes` the reader comes to the end before its
answer, and the place that it names is one it came to. -/
def RunsOut (r : Reader α) (bytes : List UInt8) : Prop :=
  ∀ offset part, part <+: bytes → part.length < bytes.length →
    ∃ place ≤ offset + part.length,
      r ⟨offset, part⟩ = .error (.endOfImage place)

/-- The reader takes exactly `bytes` for its answer, neither more nor less. -/
structure Delimits (r : Reader α) (bytes : List UInt8) (a : α) : Prop where
  reads : Reads r bytes a
  runsOut : RunsOut r bytes

/-- Whatever the reader accepts, it took bytes from the front that
delimit its answer. -/
def Delimited (r : Reader α) : Prop :=
  ∀ c c' a, r c = .ok (a, c') →
    ∃ bytes, c.rest = bytes ++ c'.rest ∧ Delimits r bytes a

-- ========================================================== composition

theorem bind_error {r : Reader α} {c : Cursor} {e : ImageError}
    (h : r c = .error e) (f : α → Reader β) : (r >>= f) c = .error e := by
  show (r c >>= fun x => f x.1 x.2) = _
  rw [h]
  rfl

/-- Two readers that accept one after the other accepted each. -/
theorem exists_of_bind {r : Reader α} {f : α → Reader β} {c c' : Cursor}
    {b : β} (h : (r >>= f) c = .ok (b, c')) :
    ∃ a c₁, r c = .ok (a, c₁) ∧ f a c₁ = .ok (b, c') := by
  change (r c >>= fun x => f x.1 x.2) = _ at h
  cases hr : r c with
  | error e =>
      rw [hr] at h
      cases h
  | ok x =>
      rw [hr] at h
      exact ⟨x.1, x.2, rfl, h⟩

/-- A shorter part of two stretches ends in the first of them or in the
second. -/
theorem RunsOut.bind {r : Reader α} {front back : List UInt8} {a : α}
    {f : α → Reader β} (h : Delimits r front a) (hf : RunsOut (f a) back) :
    RunsOut (r >>= f) (front ++ back) := by
  intro offset part hpart hlength
  rcases Nat.lt_or_ge part.length front.length with hlt | hge
  · have hfront : part <+: front :=
      List.prefix_of_prefix_length_le hpart (List.prefix_append _ _)
        (Nat.le_of_lt hlt)
    obtain ⟨place, hplace, hrun⟩ := h.runsOut offset part hfront hlt
    exact ⟨place, hplace, bind_error hrun f⟩
  · obtain ⟨more, rfl⟩ : front <+: part :=
      List.prefix_of_prefix_length_le (List.prefix_append _ _) hpart hge
    rw [List.length_append, List.length_append] at hlength
    obtain ⟨place, hplace, hrun⟩ := hf (offset + front.length) more
      ((List.prefix_append_right_inj front).mp hpart) (by omega)
    refine ⟨place, ?_, ?_⟩
    · rw [List.length_append]
      omega
    · rw [h.reads.run_bind, hrun]

theorem Delimits.bind {r : Reader α} {front back : List UInt8} {a : α}
    {f : α → Reader β} {b : β} (h : Delimits r front a)
    (hf : Delimits (f a) back b) :
    Delimits (r >>= f) (front ++ back) b :=
  ⟨h.reads.bind hf.reads, .bind h hf.runsOut⟩

namespace Delimited

/-- Reading nothing takes nothing. -/
theorem pure (a : α) : Delimited (pure a) := by
  intro c c' b h
  cases h
  refine ⟨[], rfl, Reads.pure a, ?_⟩
  intro offset part _ hlength
  cases hlength

theorem refuse (e : ImageError) : Delimited (Image.refuse e : Reader α) := by
  intro c c' a h
  cases h

/-- Readers that are delimited are so one after the other, whatever the second
makes of the first. -/
theorem bind {r : Reader α} {f : α → Reader β} (hr : Delimited r)
    (hf : ∀ a, Delimited (f a)) :
    Delimited (r >>= f) := by
  intro c c' b h
  obtain ⟨a, c₁, hfirst, hthen⟩ := exists_of_bind h
  obtain ⟨front, hfront, hdelimits⟩ := hr _ _ _ hfirst
  obtain ⟨back, hback, hdelimits'⟩ := hf a _ _ _ hthen
  refine ⟨front ++ back, ?_, hdelimits.bind hdelimits'⟩
  rw [hfront, hback, List.append_assoc]

theorem map {r : Reader α} (hr : Delimited r) (f : α → β) :
    Delimited (r >>= fun a => Pure.pure (f a)) :=
  hr.bind fun a => pure (f a)

/-- A reader that refuses at the place where it began, or else goes on as if
it did not know it. -/
theorem placed {r : Reader α} {f : Nat → α → Reader β} (hr : Delimited r)
    (hf : ∀ a, (∃ s, Delimited s ∧ ∀ place, f place a = s)
      ∨ ∀ place, ∃ e, f place a = Image.refuse e) :
    Delimited (here >>= fun place => r >>= f place) := by
  intro c c' b h
  obtain ⟨a, c₁, hfirst, hthen⟩ := exists_of_bind (r := r) (f := f c.offset) h
  obtain ⟨front, hfront, hdelimits⟩ := hr _ _ _ hfirst
  rcases hf a with ⟨s, hs, heq⟩ | hrefuse
  · rw [heq] at hthen
    obtain ⟨back, hback, hdelimits'⟩ := hs _ _ _ hthen
    have hboth : ∀ place, Delimits (r >>= f place) (front ++ back) b := by
      intro place
      refine hdelimits.bind ?_
      rw [heq]
      exact hdelimits'
    refine ⟨front ++ back, ?_,
      Reads.here_bind fun place => (hboth place).reads, ?_⟩
    · rw [hfront, hback, List.append_assoc]
    · intro offset
      exact (hboth offset).runsOut offset
  · obtain ⟨e, he⟩ := hrefuse c.offset
    rw [he] at hthen
    cases hthen

/-- A number of bytes is taken or there are too few. -/
theorem take (n : Nat) : Delimited (Image.take n) := by
  intro c c' a h
  unfold Image.take at h
  by_cases hlength : (c.rest.take n).length = n
  · rw [if_pos hlength] at h
    cases h
    refine ⟨c.rest.take n, (List.take_append_drop n c.rest).symm,
      Reads.take hlength, ?_⟩
    intro offset part _ hpart
    refine ⟨offset, Nat.le_add_right _ _, ?_⟩
    have hshort : (part.take n).length ≠ n := by
      rw [List.length_take]
      omega
    unfold Image.take
    rw [if_neg hshort]
  · rw [if_neg hlength] at h
    cases h

/-- By induction on the count, so are that many parts. -/
theorem many {part : Reader α} (h : Delimited part) (n : Nat)
    (done : Array α) :
    Delimited (Image.many part n done) := by
  induction n generalizing done with
  | zero => exact pure done
  | succ n ih => exact h.bind fun a => ih (done.push a)

end Delimited

-- ================================================================ parts

theorem delimited_byte : Delimited byte := (Delimited.take 1).map _

theorem delimited_word : Delimited readWord := (Delimited.take 4).map _

theorem delimited_counted {part : Reader α} (h : Delimited part) :
    Delimited (counted part) :=
  delimited_word.bind fun n => h.many n #[]

/-- A text is a word and as many bytes; what is wrong with the bytes is found
when all are there. -/
theorem delimited_text : Delimited readText := by
  refine delimited_word.bind
    fun length => (Delimited.take length).placed fun bytes => ?_
  cases String.fromUTF8? ⟨bytes.toArray⟩ with
  | some s => exact .inl ⟨_, Delimited.pure s, fun _ => rfl⟩
  | none => exact .inr fun place => ⟨_, rfl⟩

/-- Each kind has a payload of its own size, or of the size that a word in it
tells. -/
theorem delimited_payload (tag : UInt8) (kind : Kind) :
    Delimited (payload tag kind) := by
  cases kind with
  | null => exact Delimited.pure Value.null
  | int | float => exact (Delimited.take 8).map _
  | decimal =>
      refine (Delimited.take 16).bind fun mantissa =>
        delimited_byte.placed fun scale => ?_
      cases Decimal.new? (Wide.wrap (Bytes.toNat mantissa)) scale.toNat with
      | some d =>
          exact .inl ⟨_, Delimited.pure (Value.decimal d), fun _ => rfl⟩
      | none => exact .inr fun place => ⟨_, rfl⟩
  | bool =>
      refine delimited_byte.placed fun b => ?_
      by_cases hfalse : b = 0
      · refine .inl ⟨_, Delimited.pure (Value.bool false), fun place => ?_⟩
        rw [if_pos hfalse]
      · by_cases htrue : b = 1
        · refine .inl ⟨_, Delimited.pure (Value.bool true), fun place => ?_⟩
          rw [if_neg hfalse, if_pos htrue]
        · refine .inr fun place => ⟨.invalidTag tag place, ?_⟩
          rw [if_neg hfalse, if_neg htrue]
  | string => exact delimited_text.map _

/-- A constant is a tag and its payload. -/
theorem delimited_constant : Delimited readConstant := by
  refine delimited_byte.placed fun tag => ?_
  cases Kind.ofTag? tag with
  | some kind => exact .inl ⟨_, delimited_payload tag kind, fun _ => rfl⟩
  | none => exact .inr fun place => ⟨_, rfl⟩

theorem delimited_function : Delimited readFunction :=
  delimited_text.bind
    fun _ => delimited_word.bind fun _ => delimited_word.bind fun _ =>
      delimited_word.map _

theorem delimited_instruction : Delimited readInstruction := by
  refine (Delimited.take Instruction.recordSize).bind fun record => ?_
  cases Instruction.decode record with
  | ok i => exact Delimited.pure i
  | error e => exact Delimited.refuse _

/-- The header is four bytes and then two, each checked as it is taken. -/
theorem delimited_header : Delimited readHeader := by
  have hversion : Delimited (do
      let bytes ← take 2
      let v := UInt16.ofNat (Bytes.toNat bytes)
      if v ≠ version then refuse (.unsupportedVersion v)) := by
    refine (Delimited.take 2).bind fun bytes => ?_
    dsimp only
    split
    · exact Delimited.refuse _
    · exact Delimited.pure ()
  refine (Delimited.take 4).bind fun start => ?_
  dsimp only
  split
  · exact (Delimited.refuse _).bind fun _ => hversion
  · exact hversion

-- =============================================================== images

/-- What an image holds, before it is made a program. -/
structure Parts where
  entry : Nat
  constants : Array Value
  functions : Array Function
  code : Array Instruction

/-- The parts of an image, from its first byte to its last. -/
def readParts : Reader Parts := do
  readHeader
  let entry ← readWord
  let constants ← counted readConstant
  let functions ← counted readFunction
  let code ← counted readInstruction
  return { entry, constants, functions, code }

/-- What is left to do with the parts: nothing may follow them, and they must
make a program. -/
def conclude (parts : Parts) : Reader Program := do
  let c ← get
  if !c.rest.isEmpty then refuse (.trailingBytes c.rest.length)
  match Program.new parts.constants parts.code parts.functions parts.entry with
  | .ok p => return p
  | .error e => refuse (.program e)

/-- A program is read part by part, and what is left is looked at only in the
end. -/
theorem readProgram_eq : readProgram = readParts >>= conclude := by
  simp only [readParts, bind_assoc, pure_bind]
  rfl

/-- So the parts of an image are delimited. -/
theorem delimited_parts : Delimited readParts :=
  delimited_header.bind fun _ => delimited_word.bind fun _ =>
    (delimited_counted delimited_constant).bind fun _ =>
      (delimited_counted delimited_function).bind fun _ =>
        (delimited_counted delimited_instruction).map _

def Parts.ofProgram (p : Program) : Parts :=
  ⟨p.entry, p.constants, p.functions, p.code⟩

/-- Bytes behind the parts are refused before anything else. -/
theorem conclude_trailing (parts : Parts) (offset : Nat) {more : List UInt8}
    (h : more ≠ []) :
    conclude parts ⟨offset, more⟩ = .error (.trailingBytes more.length) := by
  cases more with
  | nil => exact absurd rfl h
  | cons b more => rfl

/-- Parts are concluded to a program only if nothing is left, and then they
are its parts. -/
theorem conclude_eq_ok {parts : Parts} {c c' : Cursor} {p : Program}
    (h : conclude parts c = .ok (p, c')) :
    c.rest = [] ∧ parts = .ofProgram p := by
  obtain ⟨offset, rest⟩ := c
  cases rest with
  -- bytes are left over
  | cons b rest => cases h
  | nil =>
      refine ⟨rfl, ?_⟩
      change (match Program.new parts.constants parts.code parts.functions
        parts.entry with
          | .ok p => pure p
          | .error e =>
            refuse (.program e) : Reader Program) ⟨offset, []⟩ = _ at h
      cases hnew : Program.new parts.constants parts.code parts.functions
        parts.entry with
      | error e =>
          rw [hnew] at h
          cases h
      | ok q =>
          rw [hnew] at h
          cases h
          obtain ⟨hconstants, hcode, hfunctions, hentry⟩ :=
            Program.parts_of_new hnew
          unfold Parts.ofProgram
          rw [hconstants, hcode, hfunctions, hentry]

/-- Decoding starts at the first byte and refuses what its readers refuse. -/
theorem decode_eq_error {bytes : List UInt8} {e : ImageError}
    (h : (readParts >>= conclude) ⟨0, bytes⟩ = .error e) :
    Program.decode bytes = .error e := by
  unfold Program.decode
  rw [readProgram_eq]
  exact congrArg _ h

/-- Accepted bytes are those of the program's parts, with nothing behind
them. -/
theorem delimits_of_decode {bytes : List UInt8} {p : Program}
    (h : Program.decode bytes = .ok p) :
    Delimits readParts bytes (.ofProgram p) := by
  unfold Program.decode StateT.run' at h
  rw [readProgram_eq] at h
  cases hrun : (readParts >>= conclude) ⟨0, bytes⟩ with
  | error e =>
      rw [hrun] at h
      cases h
  | ok x =>
      rw [hrun] at h
      cases h
      obtain ⟨parts, c, hparts, hconclude⟩ := exists_of_bind hrun
      obtain ⟨hrest, rfl⟩ := conclude_eq_ok hconclude
      obtain ⟨front, hfront, hdelimits⟩ := delimited_parts _ _ _ hparts
      rw [hrest, List.append_nil] at hfront
      obtain rfl : bytes = front := hfront
      exact hdelimits

/-- No image is the start of another. Less of it is refused for its end, at a
place that is there, and more is refused for as many bytes as were added. -/
theorem decode_delimited {bytes : List UInt8} {p : Program}
    (h : Program.decode bytes = .ok p) :
    (∀ part, part <+: bytes → part ≠ bytes →
      ∃ place ≤ part.length,
        Program.decode part = .error (.endOfImage place)) ∧
    ∀ more, more ≠ [] →
      Program.decode (bytes ++ more)
        = .error (.trailingBytes more.length) := by
  have hdelimits := delimits_of_decode h
  constructor
  · intro part hpart hne
    have hlength : part.length < bytes.length :=
      Nat.lt_of_le_of_ne hpart.length_le
        fun heq => hne (hpart.eq_of_length heq)
    obtain ⟨place, hplace, hrun⟩ := hdelimits.runsOut 0 part hpart hlength
    rw [Nat.zero_add] at hplace
    exact ⟨place, hplace, decode_eq_error (bind_error hrun conclude)⟩
  · intro more hmore
    refine decode_eq_error ?_
    rw [hdelimits.reads.run_bind]
    exact conclude_trailing _ _ hmore

/-- An image whose one constant is a decimal number with zeros at the end of
its fraction. -/
def looseImage : List UInt8 :=
  [84, 65, 82, 78, 1, 0, 0, 0, 0, 0]
    ++ [1, 0, 0, 0] ++ 3 :: 100 :: List.replicate 15 0 ++ [4]
    ++ [1, 0, 0, 0] ++ [0, 0, 0, 0, 0, 0, 0, 0, 0, 0, 0, 0, 0, 0, 0, 0]
    ++ [0, 0, 0, 0]

/-- The program of that image. -/
def looseProgram : Program where
  constants := #[.decimal ⟨1, 2, by decide, by decide, by decide⟩]
  code := #[]
  functions := #[⟨"", 0, 0, 0⟩]
  entry := 0
  entry_lt := Nat.zero_lt_one

/-- The image cut inside its decimal number, and the image with a byte behind
it. -/
theorem decode_looseImage_delimited :
    Program.decode looseImage = .ok looseProgram ∧
    (∃ place ≤ 20, Program.decode (looseImage.take 20)
      = .error (.endOfImage place)) ∧
    Program.decode (looseImage ++ [7]) = .error (.trailingBytes 1) := by
  have hdecode : Program.decode looseImage = .ok looseProgram := rfl
  obtain ⟨hless, hmore⟩ := decode_delimited hdecode
  have hcut : looseImage.take 20 ≠ looseImage := by decide
  have hadded : ([7] : List UInt8) ≠ [] := by decide
  exact ⟨hdecode, hless _ (List.take_prefix 20 looseImage) hcut,
    hmore [7] hadded⟩

end StackMachine.Image
