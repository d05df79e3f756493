/-
What literals spell. A string literal has no part of a line ending in it,
whatever its text holds, and is read back as that text (`escape_read_back`).

An integer literal is an optional sign and digits, behind `0x` in base
sixteen and otherwise in base ten. The grammar has the value beside each
rule: `IsDigit` for one character, `Spells` for digits, `Magnitude` for what
follows the sign, `Written` for the whole. Each function of the reader is
matched with one rule, up to `signed?_eq_some_iff`. Nothing is too long to be
read, so all that is left behind the grammar is bounds: those of 64 bits, of
operands and of counts (`integer_grammar`).
-/
import Mathlib.Data.List.Induction
import Mathlib.Tactic.IntervalCases
import Mathlib.Tactic.Lift
import StackMachine.Assembly.Source
import StackMachine.Proofs.Assembly.Writing

namespace StackMachine.Assembly

-- ================================================================= strings

/-- The literal of a text is one line, and a scan of it gives the text
back. Behind the kind of a constant it is that text too, whatever the
number of the line. -/
theorem escape_read_back (s : String) :
    '\n' ∉ (Text.escape s).toList ∧ '\r' ∉ (Text.escape s).toList ∧
      Token.scan (Text.escape s).toList = .ok [.string s] ∧
      ∀ (r : Reading) (number : Nat),
        r.readLine ((".const string " ++ Text.escape s).toList, number)
          = .ok { r with draft := r.draft.constant (.string s) } := by
  have hline := Token.isLine_escape s
  refine ⟨fun h => (hline _ h).1 rfl, fun h => (hline _ h).2 rfl,
    Token.scan_escape s, fun r number => ?_⟩
  have hconstant : Statement.ofLine (".const string " ++ Text.escape s).toList
      = .ok [.constant (.string s)] := by
    have hwritable : Statement.Writable (.string s) := trivial
    exact (Statement.asks_constant hwritable).ofLine
  rw [Reading.readLine, hconstant]
  rfl

-- ========================================================= spelled numbers

namespace Statement

variable {α : Type} {read : String → Option α} {text : String}

/-- A token is taken for a number exactly if it reads as that number. -/
theorem spelled_eq_ok_iff {a : α} :
    spelled read text = .ok a ↔ read text = some a := by
  rw [spelled]
  cases read text <;> simp

/-- It is refused as an invalid number exactly if it reads as none. -/
theorem spelled_eq_error_iff {e : LineError} :
    spelled read text = .error e
      ↔ (¬∃ a, read text = some a) ∧ e = .invalidNumber text := by
  rw [spelled]
  cases read text <;> simp [eq_comm]

end Statement

namespace Literal

-- ================================================================= grammar

/-- The character is the digit `d` of a base, a small or a capital
letter from ten on. -/
def IsDigit (base : Nat) (c : Char) (d : Nat) : Prop :=
  d < base ∧ (c = Nat.digitChar d ∨ c = (Nat.digitChar d).toUpper)

/-- One or more digits, and the number that they spell. The last of them
counts ones, and those before it count as many times the base. -/
inductive Spells (base : Nat) : List Char → Nat → Prop where
  | digit {c : Char} {d : Nat} (hc : IsDigit base c d) : Spells base [c] d
  | concat {digits : List Char} {n : Nat} {c : Char} {d : Nat}
      (hdigits : Spells base digits n) (hc : IsDigit base c d) :
    Spells base (digits ++ [c]) (n * base + d)

/-- Digits, and the number that they spell in the base that they are marked
with. -/
inductive Magnitude : List Char → Nat → Prop where
  | decimal {digits : List Char} {n : Nat} (h : Spells 10 digits n) :
    Magnitude digits n
  | hexadecimal {mark : Char} {digits : List Char} {n : Nat}
      (hmark : mark = 'x' ∨ mark = 'X') (h : Spells 16 digits n) :
    Magnitude ('0' :: mark :: digits) n

/-- Digits with at most one sign in front, and the integer that they spell. -/
inductive Written : List Char → Int → Prop where
  | bare {body : List Char} {n : Nat} (h : Magnitude body n) : Written body n
  | plus {body : List Char} {n : Nat} (h : Magnitude body n) :
    Written ('+' :: body) n
  | minus {body : List Char} {n : Nat} (h : Magnitude body n) :
    Written ('-' :: body) (-n)

-- ================================================================== digits

/-- The digits of base ten are the characters that decimal literals accept, at
the values they are given. -/
theorem isDigit_ten_iff {c : Char} {d : Nat} :
    IsDigit 10 c d ↔ c.isDigit = true ∧ Text.digitValue c = d := by
  constructor
  · rintro ⟨hd, rfl | rfl⟩ <;> interval_cases d <;> decide
  · rintro ⟨hc, rfl⟩
    obtain ⟨hlo, hhi⟩ := Token.isDigit_iff_toNat.mp hc
    have hd : c.toNat - 48 < 10 := by omega
    refine ⟨hd, .inl (Char.toNat_inj.mp ?_)⟩
    show c.toNat = (Nat.digitChar (c.toNat - 48)).toNat
    rw [Nat.toNat_digitChar_of_lt_ten hd]
    omega

/-- So are those of base sixteen, of either case, for what stands behind
`0x`. -/
theorem isDigit_sixteen_iff {c : Char} {d : Nat} :
    IsDigit 16 c d ↔ Text.isHexDigit c = true ∧ Text.hexDigitValue c = d := by
  constructor
  · rintro ⟨hd, rfl | rfl⟩ <;> interval_cases d <;> decide
  · rintro ⟨hc, rfl⟩
    simp only [Text.isHexDigit, Bool.or_eq_true, Bool.and_eq_true,
      decide_eq_true_eq] at hc
    rcases hc with (hdigit | ⟨hlo, hhi⟩) | ⟨hlo, hhi⟩
    · obtain ⟨hlt, hchar⟩ := isDigit_ten_iff.mpr ⟨hdigit, rfl⟩
      rw [Text.hexDigitValue, if_pos hdigit]
      exact ⟨Nat.lt_trans hlt (by decide), hchar⟩
    · have hlo : 97 ≤ c.toNat := hlo
      have hhi : c.toNat ≤ 102 := hhi
      rw [← Char.ofNat_toNat c]
      interval_cases c.toNat <;> exact ⟨by decide, .inl (by decide)⟩
    · have hlo : 65 ≤ c.toNat := hlo
      have hhi : c.toNat ≤ 70 := hhi
      rw [← Char.ofNat_toNat c]
      interval_cases c.toNat <;> exact ⟨by decide, .inr (by decide)⟩

/-- Digits are read from the left, so what was read before the last one is
what they spell without it. -/
theorem spells_iff {base : Nat} {isDigit : Char → Bool} {value : Char → Nat}
    (hdigit : ∀ c d, IsDigit base c d ↔ isDigit c = true ∧ value c = d)
    {digits : List Char} {n : Nat} : Spells base digits n ↔
      digits ≠ [] ∧ (∀ c ∈ digits, isDigit c = true)
        ∧ Text.number base value digits = n := by
  constructor
  · intro h
    induction h with
    | digit hc =>
        obtain ⟨hchar, rfl⟩ := (hdigit _ _).mp hc
        exact ⟨List.cons_ne_nil _ _,
          by simpa using hchar, by simp [Text.number]⟩
    | concat _ hc ih =>
        obtain ⟨hchar, rfl⟩ := (hdigit _ _).mp hc
        obtain ⟨-, hdigits, rfl⟩ := ih
        refine ⟨by simp, fun d hd => ?_, Text.number_concat ..⟩
        rcases List.mem_append.mp hd with hd | hd
        · exact hdigits d hd
        · rw [List.mem_singleton.mp hd]
          exact hchar
  · rintro ⟨hne, hdigits, rfl⟩
    -- the last digit is split off, as the grammar does
    induction digits using List.reverseRecOn with
    | nil => exact absurd rfl hne
    | append_singleton digits c ih =>
        have hc : IsDigit base c (value c) :=
          (hdigit _ _).mpr ⟨hdigits c (by simp), rfl⟩
        rw [Text.number_concat]
        by_cases hnil : digits = []
        · subst hnil
          simpa [Text.number] using Spells.digit hc
        · exact .concat
            (ih hnil fun d hd => hdigits d (List.mem_append_left _ hd)) hc

theorem spells_ten_iff {digits : List Char} {n : Nat} : Spells 10 digits n ↔
    digits ≠ [] ∧ (∀ c ∈ digits, c.isDigit = true)
      ∧ Text.decimalNumber digits = n :=
  spells_iff fun _ _ => isDigit_ten_iff

theorem spells_sixteen_iff {digits : List Char} {n : Nat} :
    Spells 16 digits n ↔
    digits ≠ [] ∧ (∀ c ∈ digits, Text.isHexDigit c = true)
      ∧ Text.hexNumber digits = n :=
  spells_iff fun _ _ => isDigit_sixteen_iff

-- ================================================================== reading

/-- What is asked of digits before they are read. -/
theorem checked_eq_some_iff {isDigit : Char → Bool} {digits : List Char}
    {m n : Nat} :
    (if digits.isEmpty || !digits.all isDigit then none else some m) = some n ↔
      digits ≠ [] ∧ (∀ c ∈ digits, isDigit c = true) ∧ m = n := by
  rw [Option.ite_none_left_eq_some]
  simp [and_assoc]

theorem hexadecimal?_eq_some_iff {digits : List Char} {n : Nat} :
    magnitude?.hexadecimal? digits = some n ↔ Spells 16 digits n := by
  rw [magnitude?.hexadecimal?, checked_eq_some_iff, spells_sixteen_iff]

/-- A magnitude is read exactly if the grammar has it; no decimal digits start
with `0x`, so the two forms do not overlap. -/
theorem magnitude?_eq_some_iff {body : List Char} {n : Nat} :
    magnitude? body = some n ↔ Magnitude body n := by
  constructor
  · intro h
    unfold magnitude? at h
    split at h
    · exact .hexadecimal (.inl rfl) (hexadecimal?_eq_some_iff.mp h)
    · exact .hexadecimal (.inr rfl) (hexadecimal?_eq_some_iff.mp h)
    · exact .decimal (spells_ten_iff.mpr (checked_eq_some_iff.mp h))
  · intro h
    cases h with
    | decimal h =>
        -- no digit is a mark, so these are not taken for hexadecimal ones
        obtain ⟨hne, hdigits, rfl⟩ := spells_ten_iff.mp h
        exact magnitude?_eq hne hdigits
    | hexadecimal hmark h =>
        rcases hmark with rfl | rfl
        · exact hexadecimal?_eq_some_iff.mpr h
        · exact hexadecimal?_eq_some_iff.mpr h

/-- A magnitude with its sign put on by `f`. -/
theorem map_magnitude?_eq_some_iff {body : List Char} {f : Int → Int}
    {n : Int} :
    (do let m ← magnitude? body; pure (m : Int)).map f = some n
      ↔ ∃ m : Nat, Magnitude body m ∧ f m = n := by
  simp [Option.bind_eq_some_iff, magnitude?_eq_some_iff]

/-- No sign is a digit. -/
theorem Magnitude.isDigit_head {c : Char} {rest : List Char} {n : Nat}
    (h : Magnitude (c :: rest) n) : c.isDigit = true := by
  cases h with
  | decimal h => exact (spells_ten_iff.mp h).2.1 c List.mem_cons_self
  | hexadecimal hmark h => decide

/-- An integer is read exactly if the grammar has it, since no magnitude
starts with a sign. -/
theorem signed?_eq_some_iff {text : String} {n : Int} :
    signed? text = some n ↔ Written text.toList n := by
  unfold signed?
  generalize text.toList = chars
  constructor
  · intro h
    split at h
    · obtain ⟨m, hm, rfl⟩ := map_magnitude?_eq_some_iff.mp h
      exact .minus hm
    · obtain ⟨m, hm, rfl⟩ := map_magnitude?_eq_some_iff.mp h
      exact .plus hm
    · obtain ⟨m, hm, rfl⟩ := map_magnitude?_eq_some_iff.mp h
      exact .bare hm
  · intro h
    cases h with
    | minus h => exact map_magnitude?_eq_some_iff.mpr ⟨_, h, rfl⟩
    | plus h => exact map_magnitude?_eq_some_iff.mpr ⟨_, h, rfl⟩
    | bare h =>
        split
        · exact absurd h.isDigit_head (by decide)
        · exact absurd h.isDigit_head (by decide)
        · exact map_magnitude?_eq_some_iff.mpr ⟨_, h, rfl⟩

-- =================================================================== bounds

/-- Of those, the ones that fit 64 bits are read as literals. -/
theorem integer?_eq_some_iff {text : String} {n : Int} :
    integer? text = some n ↔
      Written text.toList n ∧ -0x8000000000000000 ≤ n
        ∧ n < 0x8000000000000000 := by
  rw [← signed?_eq_some_iff, integer?]
  cases signed? text with
  | none => simp
  | some m =>
      simp only [Option.ite_none_right_eq_some, Option.some.injEq]
      grind

/-- An operand is read exactly if the text spells its value; one of 32 bits
always passes the check for 64. -/
theorem operand?_eq_some_iff {text : String} {n : Int32} :
    operand? text = some n ↔ Written text.toList n.toInt := by
  have hlo := n.le_toInt
  have hhi := n.toInt_lt
  have hinteger : integer? text = some n.toInt
      ↔ Written text.toList n.toInt := by
    rw [integer?_eq_some_iff]
    exact and_iff_left ⟨by omega, by omega⟩
  rw [← hinteger, operand?]
  cases integer? text with
  | none => simp
  | some m =>
      simp only [Option.ite_none_right_eq_some, Option.some.injEq]
      constructor
      · rintro ⟨⟨hmin, hmax⟩, rfl⟩
        rw [Int32.toInt_ofInt_of_le hmin hmax]
      · rintro rfl
        exact ⟨⟨hlo, hhi⟩, Int32.ofInt_toInt n⟩

/-- A count is read exactly if the text spells it and it fits 64 bits with a
sign. -/
theorem count?_eq_some_iff {text : String} {n : Nat} :
    count? text = some n ↔ Written text.toList n ∧ n < 0x8000000000000000 := by
  have hinteger : integer? text = some (n : Int)
      ↔ Written text.toList n ∧ n < 0x8000000000000000 := by
    rw [integer?_eq_some_iff]
    refine and_congr_right fun _ => ?_
    omega
  rw [← hinteger, count?]
  cases integer? text with
  | none => simp
  | some m =>
      simp only [Option.ite_none_right_eq_some, Option.some.injEq]
      omega

/-- Some operand is read exactly if the text spells an integer of 32 bits. -/
theorem exists_operand?_iff {text : String} : (∃ n, operand? text = some n) ↔
    ∃ n, Written text.toList n ∧ -0x80000000 ≤ n ∧ n < 0x80000000 := by
  simp only [operand?_eq_some_iff]
  constructor
  · rintro ⟨n, hn⟩
    exact ⟨n.toInt, hn, n.le_toInt, n.toInt_lt⟩
  · rintro ⟨n, hn, hlo, hhi⟩
    exact ⟨Int32.ofInt n, by rwa [Int32.toInt_ofInt_of_le hlo hhi]⟩

/-- Some count is read exactly if the text spells an integer of 64 bits that
is not negative. -/
theorem exists_count?_iff {text : String} : (∃ n, count? text = some n) ↔
    ∃ n, Written text.toList n ∧ 0 ≤ n ∧ n < 0x8000000000000000 := by
  simp only [count?_eq_some_iff]
  constructor
  · rintro ⟨n, hn, hlt⟩
    exact ⟨n, hn, Int.natCast_nonneg n, by omega⟩
  · rintro ⟨n, hn, hlo, hhi⟩
    lift n to Nat using hlo
    exact ⟨n, hn, by omega⟩

/-- A text is read as an integer exactly if the grammar has it as an integer
of 64 bits, so the canonical text of every integer of 64 bits is read back. It
is accepted as an operand exactly if it spells an integer that fits 32 bits,
as a count exactly if it spells one of 64 bits that is not negative, and
refused as an invalid number exactly otherwise. -/
theorem integer_grammar :
    (∀ text n, integer? text = some n ↔
      Written text.toList n
        ∧ -0x8000000000000000 ≤ n ∧ n < 0x8000000000000000) ∧
    (∀ n : Int64, integer? (toString n.toInt) = some n.toInt) ∧
    (∀ text (n : Int32), Statement.spelled operand? text = .ok n
      ↔ Written text.toList n.toInt) ∧
    (∀ text e, Statement.spelled operand? text = .error e ↔
      (¬∃ n, Written text.toList n ∧ -0x80000000 ≤ n ∧ n < 0x80000000)
        ∧ e = .invalidNumber text) ∧
    (∀ text (n : Nat), Statement.spelled count? text = .ok n ↔
      Written text.toList n ∧ n < 0x8000000000000000) ∧
    (∀ text e, Statement.spelled count? text = .error e ↔
      (¬∃ n, Written text.toList n ∧ 0 ≤ n ∧ n < 0x8000000000000000)
        ∧ e = .invalidNumber text) := by
  refine ⟨fun _ _ => integer?_eq_some_iff, integer?_int64, fun text n => ?_,
    fun text e => ?_, fun text n => ?_, fun text e => ?_⟩
  · rw [Statement.spelled_eq_ok_iff, operand?_eq_some_iff]
  · rw [Statement.spelled_eq_error_iff, exists_operand?_iff]
  · rw [Statement.spelled_eq_ok_iff, count?_eq_some_iff]
  · rw [Statement.spelled_eq_error_iff, exists_count?_iff]

/-- There is one more negative integer than there are positive ones. -/
example : integer? "-0x8000000000000000" = some (-0x8000000000000000)
    ∧ integer? "+0X8000000000000000" = none := by decide

end Literal

end StackMachine.Assembly
