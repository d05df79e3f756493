/-
What decides whether an image can be written. Each writer comes down to two
plain things (`encode_eq_written`): the words it puts down on the way, in
order, and the bytes it would leave if they all fit. So an image is refused
exactly for a word that does not fit 32 bits, and the refusal names the first
one (`written_eq_error_iff`).
-/
import StackMachine.Image.Writer

namespace StackMachine.Image

-- =============================================================== words

/-- A word of an image: what it is for, and its number. -/
abbrev Word := Field × Nat

def textWord (field : Field) (s : String) : Word := (field, (utf8 s).length)

/-- The words of a constant: the length of a text, and else none. -/
def constantWords : Value → List Word
  | .string s => [textWord .stringLength s]
  | _ => []

def functionWords (f : Function) : List Word :=
  [textWord .functionNameLength f.name, (.functionEntry, f.entry),
    (.parameterCount, f.params), (.localCount, f.locals)]

/-- All words of an image, in the order in which they are written. -/
def words (p : Program) : List Word :=
  [(.entryIndex, p.entry), (.constantCount, p.constants.size)]
    ++ p.constants.toList.flatMap constantWords
    ++ [(.functionCount, p.functions.size)]
    ++ p.functions.toList.flatMap functionWords
    ++ [(.instructionCount, p.code.size)]

-- =============================================================== bytes

def textBytes (s : String) : List UInt8 :=
  Bytes.ofNat 4 (utf8 s).length ++ utf8 s

/-- The bytes behind the tag of a constant. -/
def payloadBytes : Value → List UInt8
  | .null => []
  | .int n => Bytes.ofInt 8 n.toInt
  | .float x => Bytes.ofNat 8 x.bits.toNat
  | .decimal d => Bytes.ofInt 16 d.mantissa ++ [UInt8.ofNat d.scale]
  | .bool b => [if b then 1 else 0]
  | .string s => textBytes s

def constantBytes (v : Value) : List UInt8 := v.kind.tag :: payloadBytes v

def functionBytes (f : Function) : List UInt8 :=
  textBytes f.name ++ Bytes.ofNat 4 f.entry ++ Bytes.ofNat 4 f.params
    ++ Bytes.ofNat 4 f.locals

/-- The bytes of a section: the count of its parts, and the parts. -/
def sectionBytes (part : α → List UInt8) (parts : Array α) : List UInt8 :=
  Bytes.ofNat 4 parts.size ++ parts.toList.flatMap part

/-- The bytes of an image, whether or not its words fit. -/
def imageBytes (p : Program) : List UInt8 :=
  magic ++ Bytes.ofNat 2 version.toNat ++ Bytes.ofNat 4 p.entry
    ++ sectionBytes constantBytes p.constants
    ++ sectionBytes functionBytes p.functions
    ++ sectionBytes Instruction.encode p.code

-- ============================================================= writers

/-- The bytes, unless one of the words is too large for 32 bits: then the
first such word. -/
def written (ws : List Word)
    (bytes : List UInt8) : Except FieldTooLarge (List UInt8) :=
  match ws.find? (fun w => UInt32.size ≤ w.2) with
  | some w => .error ⟨w.1, w.2⟩
  | none => .ok bytes

/-- Bytes are written exactly if every word fits. -/
theorem written_eq_ok_iff {ws : List Word} {bytes b : List UInt8} :
    written ws bytes = .ok b ↔ (∀ w ∈ ws, w.2 < UInt32.size) ∧ bytes = b := by
  unfold written
  cases hfind : ws.find? (fun w => UInt32.size ≤ w.2) with
  | some w =>
      have hmem : w ∈ ws := List.mem_of_find?_eq_some hfind
      have hlarge : UInt32.size ≤ w.2 := by simpa using List.find?_some hfind
      constructor
      · intro h
        cases h
      · intro h
        exact absurd (h.1 w hmem) (Nat.not_lt.mpr hlarge)
  | none =>
      have hfit : ∀ w ∈ ws, w.2 < UInt32.size := by simpa using hfind
      constructor
      · intro h
        cases h
        exact ⟨hfit, rfl⟩
      · intro h
        rw [h.2]

/-- They are refused exactly if some word does not fit. -/
theorem exists_written_error_iff {ws : List Word} {bytes : List UInt8} :
    (∃ e, written ws bytes = .error e) ↔ ∃ w ∈ ws, UInt32.size ≤ w.2 := by
  unfold written
  cases hfind : ws.find? (fun w => UInt32.size ≤ w.2) with
  | some w =>
      have hlarge : UInt32.size ≤ w.2 := by simpa using List.find?_some hfind
      exact ⟨fun _ => ⟨w, List.mem_of_find?_eq_some hfind, hlarge⟩,
        fun _ => ⟨⟨w.1, w.2⟩, rfl⟩⟩
  | none =>
      have hfit : ∀ w ∈ ws, w.2 < UInt32.size := by simpa using hfind
      constructor
      · rintro ⟨e, he⟩
        cases he
      · rintro ⟨w, hw, hlarge⟩
        exact absurd (hfit w hw) (Nat.not_lt.mpr hlarge)

/-- A refusal is about the first word that does not fit. -/
theorem written_eq_error_iff {ws : List Word} {bytes : List UInt8}
    {field : Field} {n : Nat} :
    written ws bytes = .error ⟨field, n⟩ ↔
      UInt32.size ≤ n ∧
        ∃ before after, ws = before ++ (field, n) :: after
          ∧ ∀ w ∈ before, w.2 < UInt32.size := by
  have hfind : written ws bytes = .error ⟨field, n⟩ ↔
      ws.find? (fun w => UInt32.size ≤ w.2) = some (field, n) := by
    unfold written
    cases ws.find? (fun w => UInt32.size ≤ w.2) with
    | none => simp
    | some w => simp [Prod.ext_iff]
  rw [hfind, List.find?_eq_some_iff_append]
  simp

/-- Words written one after the other are refused for the first of all that
does not fit. -/
theorem written_bind {ws vs : List Word} {bytes : List UInt8}
    {f : List UInt8 → Except FieldTooLarge (List UInt8)}
    {g : List UInt8 → List UInt8} (hf : ∀ b, f b = written vs (g b)) :
    written ws bytes >>= f = written (ws ++ vs) (g bytes) := by
  unfold written
  rw [List.find?_append]
  cases ws.find? (fun w => UInt32.size ≤ w.2) with
  | some w => rfl
  | none => exact hf bytes

/-- More bytes without words of their own are refused for the same word. -/
theorem written_map {ws : List Word} {bytes : List UInt8}
    (g : List UInt8 → List UInt8) :
    (written ws bytes >>= fun b => pure (g b)) = written ws (g bytes) := by
  have hpure : ∀ b,
      (pure (g b) : Except FieldTooLarge (List UInt8)) = written [] (g b) :=
    fun _ => rfl
  rw [written_bind hpure, List.append_nil]

/-- A word is four bytes, unless it does not fit. -/
theorem word_eq_written (field : Field) (n : Nat) :
    word field n = written [(field, n)] (Bytes.ofNat 4 n) := by
  unfold word written
  by_cases h : n < UInt32.size
  · rw [if_pos h, List.find?_cons_of_neg (by simpa using h), List.find?_nil]
  · rw [if_neg h, List.find?_cons_of_pos (by simpa using h)]

theorem text_eq_written (field : Field) (s : String) :
    text field s = written [textWord field s] (textBytes s) := by
  unfold text
  rw [word_eq_written, written_map fun length => length ++ utf8 s]
  rfl

/-- A constant has a word only if it is a text. -/
theorem constant_eq_written (v : Value) :
    constant v = written (constantWords v) (constantBytes v) := by
  cases v with
  | string s =>
      show (text .stringLength s
        >>= fun bytes => pure ((Value.string s).kind.tag :: bytes)) = _
      rw [text_eq_written,
        written_map fun bytes => (Value.string s).kind.tag :: bytes]
      rfl
  | _ => rfl

/-- A function has four words, the first of them in its name. -/
theorem function_eq_written (f : Function) :
    function f = written (functionWords f) (functionBytes f) := by
  unfold function
  simp only [text_eq_written, word_eq_written, written_map]
  rw [written_bind
    fun name => written_bind fun entry => written_bind fun params => rfl]
  rfl

/-- By induction on the parts, a section has the words of its parts in
order. -/
theorem section?_eq_written {part : α → Except FieldTooLarge (List UInt8)}
    {ws : α → List Word} {bytes : α → List UInt8}
    (hpart : ∀ a, part a = written (ws a) (bytes a))
    (parts : List α) : section? part parts
      = written (parts.flatMap ws) (parts.flatMap bytes) := by
  induction parts with
  | nil => rfl
  | cons a rest ih =>
      rw [section?, hpart, List.flatMap_cons, List.flatMap_cons, ih]
      exact written_bind fun b => written_map fun others => b ++ others

/-- Writing an image is writing its words and bytes. -/
theorem encode_eq_written (p : Program) :
    p.encode = written (words p) (imageBytes p) := by
  unfold Program.encode
  simp only [word_eq_written, section?_eq_written constant_eq_written,
    written_map, section?_eq_written function_eq_written]
  rw [written_bind
    fun entry => written_bind fun count => written_bind fun constants =>
      written_bind fun count => written_bind fun functions => rfl]
  simp [words, imageBytes, sectionBytes, Instruction.encodeStream]

end StackMachine.Image
