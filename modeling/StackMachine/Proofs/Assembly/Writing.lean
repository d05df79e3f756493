/-
The lines of a listing are read as the statements they were written for.
Each line is a sequence of words with a blank between them, or ends in a
string literal; `Spells` says of a line that it is one line of text and which
tokens it scans to, and grows from the back by one word at a time. What is
left per line is that the tokens make the statement.

Nothing here depends on what the statements do: a line is read the same way
whatever stands before it.
-/
import StackMachine.Assembly.Listing
import StackMachine.Assembly.Statement
import StackMachine.Proofs.Assembly.Scanning
import StackMachine.Proofs.Decimal.Canonical

namespace StackMachine.Assembly

namespace Token

-- =================================================== lines and their tokens

/-- The line is one line of text with these tokens. -/
structure Spells (line : List Char) (tokens : List Token) : Prop where
  isLine : Text.IsLine line
  scan : scan line = .ok tokens

theorem Spells.word {word : List Char} (h : IsWord word) :
    Spells word [ofWord word] :=
  ⟨IsPlain.isLine h.plain, scan_word h⟩

/-- A written string literal is a line that scans back to its text. -/
theorem Spells.escape (s : String) :
    Spells (Text.escape s).toList [.string s] :=
  ⟨isLine_escape s, scan_escape s⟩

/-- A word and a blank in front of a line put one token in front of its
tokens. -/
theorem Spells.cons (word : List Char) {rest : List Char} {tokens : List Token}
    (hw : IsWord word) (h : Spells rest tokens) :
    Spells (word ++ ' ' :: rest) (ofWord word :: tokens) := by
  constructor
  · intro c hc
    rcases List.mem_append.mp hc with hc | hc
    · exact IsPlain.isLine hw.plain c hc
    · rcases List.mem_cons.mp hc with rfl | hc
      · decide
      · exact h.isLine c hc
  · rw [scan_word_blank hw, h.scan]
    rfl

/-- A blank in front of a line changes nothing about its tokens. -/
theorem Spells.blank {rest : List Char} {tokens : List Token}
    (h : Spells rest tokens) :
    Spells (' ' :: rest) tokens := by
  constructor
  · intro c hc
    rcases List.mem_cons.mp hc with rfl | hc
    · decide
    · exact h.isLine c hc
  · rw [scan_blank_cons (by decide), h.scan]

theorem Spells.name {name : String} {rest : List Char} {tokens : List Token}
    (hn : IsName name) (h : Spells rest tokens) :
    Spells (name.toList ++ ' ' :: rest) (.ident name :: tokens) := by
  rw [← hn.ofWord_eq]
  exact Spells.cons _ hn.word h

theorem Spells.numeral {text : String} {rest : List Char} {tokens : List Token}
    (hn : IsNumeral text) (h : Spells rest tokens) :
    Spells (text.toList ++ ' ' :: rest) (.number text :: tokens) := by
  rw [← hn.ofWord_eq]
  exact Spells.cons _ hn.word h

theorem Spells.lastName {name : String} (hn : IsName name) :
    Spells name.toList [.ident name] := by
  rw [← hn.ofWord_eq]
  exact Spells.word hn.word

theorem Spells.lastNumeral {text : String} (hn : IsNumeral text) :
    Spells text.toList [.number text] := by
  rw [← hn.ofWord_eq]
  exact Spells.word hn.word

-- ================================================================ numerals

/-- The characters of numerals: digits, a minus and a point. -/
def IsNumeric (c : Char) : Prop := c.isDigit ∨ c = '-' ∨ c = '.'

/-- The digits as a range of code points, for arithmetic to work with. -/
theorem isDigit_iff_toNat {c : Char} :
    c.isDigit ↔ 48 ≤ c.toNat ∧ c.toNat ≤ 57 := by
  simp only [Char.isDigit, Bool.and_eq_true, decide_eq_true_eq]
  rfl

/-- No character of a numeral ends a word. -/
theorem IsNumeric.isPlain {c : Char} (h : IsNumeric c) : IsPlain c := by
  rcases h with hdigit | rfl | rfl
  · obtain ⟨hlo, hhi⟩ := isDigit_iff_toNat.mp hdigit
    refine ⟨?_, ?_, ?_⟩
    · unfold Text.isBlank
      simp only [Bool.or_eq_false_iff, Bool.and_eq_false_iff,
        decide_eq_false_iff_not, beq_eq_false_iff_ne]
      omega
    · rintro rfl
      exact absurd hdigit (by decide)
    · rintro rfl
      exact absurd hdigit (by decide)
  · decide
  · decide

/-- No character of a numeral is a letter, so none makes a point in front of
it a directive. -/
theorem IsNumeric.isAlpha_eq_false {c : Char} (h : IsNumeric c) :
    c.isAlpha = false := by
  rcases h with hdigit | rfl | rfl
  · obtain ⟨hlo, hhi⟩ := isDigit_iff_toNat.mp hdigit
    have hupper : c.isUpper = false := by
      refine Bool.eq_false_iff.mpr fun hupper => ?_
      have hge : 65 ≤ c.toNat := (of_decide_eq_true hupper).1
      omega
    have hlower : c.isLower = false := by
      refine Bool.eq_false_iff.mpr fun hlower => ?_
      have hge : 97 ≤ c.toNat :=
        of_decide_eq_true (Bool.and_eq_true_iff.mp hlower).1
      omega
    show (c.isUpper || c.isLower) = false
    rw [hupper, hlower]
    rfl
  · decide
  · decide

/-- What starts like a number and has nothing but digits, signs and
points is a numeral. -/
theorem isNumeral_of_looksNumeric {text : String}
    (hlooks : looksNumeric text.toList)
    (hchars : ∀ c ∈ text.toList, IsNumeric c) : IsNumeral text := by
  have hword : IsWord text.toList := by
    refine ⟨fun hnil => ?_, fun c hc => (hchars c hc).isPlain⟩
    rw [hnil] at hlooks
    cases hlooks
  -- there is no colon at the end
  have hlabel : labelName? text.toList = none := by
    unfold labelName?
    split
    · next hlast =>
      have hcolon := hchars ':' (List.mem_of_getLast? hlast)
      unfold IsNumeric at hcolon
      exact absurd hcolon (by decide)
    · rfl
  -- nor a letter behind the first character
  have hdirective : directiveName? text.toList = none := by
    unfold directiveName?
    split
    · next c rest heq =>
      have hc : c ∈ text.toList := by
        rw [heq]
        exact List.mem_cons_of_mem _ List.mem_cons_self
      rw [(hchars c hc).isAlpha_eq_false]
      rfl
    · rfl
  refine ⟨hword, ?_⟩
  unfold ofWord
  simp only [hlabel, hdirective]
  rw [if_pos hlooks, String.ofList_toList]

/-- A digit makes the word that it starts look like a number, also
behind a minus. -/
theorem looksNumeric_digit {c : Char} {rest : List Char} (hc : c.isDigit) :
    looksNumeric (c :: rest) ∧ looksNumeric ('-' :: c :: rest) := by
  have hne : ∀ d : Char, d.isDigit = false → c ≠ d := by
    rintro d hd rfl
    rw [hc] at hd
    cases hd
  simp [looksNumeric, hne '-' (by decide), hne '+' (by decide),
    hne '.' (by decide), hc]

/-- An optional minus, a digit, and then digits and points. -/
theorem isNumeral_signed {text : String} {negative : Prop} [Decidable negative]
    {c : Char} {rest : List Char}
    (htext : text.toList = (if negative then ['-'] else []) ++ c :: rest)
    (hc : c.isDigit) (hrest : ∀ d ∈ rest, IsNumeric d) : IsNumeral text := by
  have hdigits : ∀ d ∈ c :: rest, IsNumeric d := by
    intro d hd
    rcases List.mem_cons.mp hd with rfl | hd
    · exact .inl hc
    · exact hrest d hd
  by_cases hneg : negative
  · rw [if_pos hneg, List.singleton_append] at htext
    refine isNumeral_of_looksNumeric ?_ ?_
    · rw [htext]
      -- a minus in front of a digit looks like a number as well
      exact (looksNumeric_digit hc).2
    · intro d hd
      rw [htext] at hd
      rcases List.mem_cons.mp hd with rfl | hd
      · exact .inr (.inl rfl)
      · exact hdigits d hd
  · rw [if_neg hneg, List.nil_append] at htext
    refine isNumeral_of_looksNumeric ?_ ?_
    · rw [htext]
      exact (looksNumeric_digit hc).1
    · rw [htext]
      exact hdigits

/-- Integers are written as numerals. -/
theorem isNumeral_int (n : Int) : IsNumeral (toString n) := by
  have htext := Text.toList_toString_int n
  have hdigit : ∀ c ∈ Nat.toDigits 10 n.natAbs, c.isDigit := fun c hc =>
    Text.isDigit_of_mem_toDigits hc
  cases hdigits : Nat.toDigits 10 n.natAbs with
  | nil => exact absurd hdigits Nat.toDigits_ne_nil
  | cons c rest =>
      rw [hdigits] at htext hdigit
      exact isNumeral_signed htext (hdigit c List.mem_cons_self)
        fun d hd => .inl (hdigit d (List.mem_cons_of_mem c hd))

theorem isNumeral_nat (n : Nat) : IsNumeral (toString n) := isNumeral_int n

/-- Decimals are written as numerals, whatever their sign and scale. -/
theorem isNumeral_decimal (d : Decimal) : IsNumeral d.toText := by
  obtain ⟨whole, fraction, hd⟩ := d.exists_spelling
  cases whole with
  | nil => exact absurd rfl hd.whole_ne_nil
  | cons c digits =>
      have hbody :
          (if d.scale = 0 then c :: digits else c :: digits ++ '.' :: fraction)
          = c :: if d.scale = 0 then digits
            else digits ++ '.' :: fraction := by
        split <;> rfl
      have htext := hd.text
      rw [hbody] at htext
      refine isNumeral_signed htext (hd.isDigit c List.mem_cons_self)
        fun x hx => ?_
      split at hx
      · exact .inl
          (hd.isDigit x (List.mem_append_left _ (List.mem_cons_of_mem c hx)))
      · rcases List.mem_append.mp hx with hx | hx
        · exact .inl
            (hd.isDigit x (List.mem_append_left _ (List.mem_cons_of_mem c hx)))
        · rcases List.mem_cons.mp hx with rfl | hx
          · exact .inr (.inr rfl)
          · exact .inl (hd.isDigit x (List.mem_append_right _ hx))

-- =================================================== names that are written

/-- A generated label is a letter and the digits of its position. -/
theorem toList_labelName (position : Nat) :
    (labelName position).toList = 'L' :: Nat.toDigits 10 position := by
  rw [labelName, String.toList_append, Nat.toString_eq_repr, Nat.toList_repr]
  rfl

/-- Different positions have different labels, since the digits of a number
give it back. -/
theorem labelName_injective {a b : Nat} (h : labelName a = labelName b) :
    a = b := by
  have hlist := congrArg String.toList h
  rw [toList_labelName, toList_labelName] at hlist
  rw [← Text.decimalNumber_toDigits a, (List.cons.inj hlist).2,
    Text.decimalNumber_toDigits]

/-- No character of a generated label ends a word. -/
theorem isPlain_labelName (position : Nat) :
    ∀ c ∈ (labelName position).toList, IsPlain c := by
  intro c hc
  rw [toList_labelName] at hc
  rcases List.mem_cons.mp hc with rfl | hc
  · decide
  · exact IsNumeric.isPlain (.inl (Text.isDigit_of_mem_toDigits hc))

/-- A generated label is scanned as a name: its letter keeps it from being a
number, and it has no colon of its own. -/
theorem isName_labelName (position : Nat) : IsName (labelName position) := by
  have htext := toList_labelName position
  have hlabel : labelName? (labelName position).toList = none := by
    unfold labelName?
    split
    · next hlast =>
      have hcolon := List.mem_of_getLast? hlast
      rw [htext] at hcolon
      rcases List.mem_cons.mp hcolon with hcolon | hcolon
      · exact absurd hcolon (by decide)
      · exact absurd (Text.isDigit_of_mem_toDigits hcolon) (by decide)
    · rfl
  have hne : (labelName position).toList ≠ [] := by
    rw [htext]
    exact List.cons_ne_nil _ _
  refine ⟨⟨hne, isPlain_labelName position⟩, ?_⟩
  unfold ofWord
  rw [hlabel, htext]
  show ident (String.ofList ('L' :: _)) = _
  rw [← htext, String.ofList_toList]

/-- A label definition is a word of its own shape. -/
theorem Spells.labelDefinition (position : Nat) :
    Spells (labelName position ++ ":").toList
      [.label (labelName position)] := by
  have htext : (labelName position ++ ":").toList = (labelName position).toList
      ++ [':'] := by
    rw [String.toList_append]
    rfl
  have hword : IsWord (labelName position ++ ":").toList := by
    rw [htext]
    refine ⟨List.append_ne_nil_of_right_ne_nil _ (List.cons_ne_nil _ _),
      fun c hc => ?_⟩
    rcases List.mem_append.mp hc with hc | hc
    · exact isPlain_labelName position c hc
    · obtain rfl := List.mem_singleton.mp hc
      decide
  have hlabel : labelName? (labelName position ++ ":").toList
      = some (labelName position).toList := by
    have hne : (labelName position).toList ≠ [] :=
      (isName_labelName position).word.ne_nil
    unfold labelName?
    rw [htext, List.getLast?_concat, List.dropLast_concat]
    show (if (labelName position).toList.isEmpty then _ else _) = _
    rw [if_neg (by rw [List.isEmpty_iff]; exact hne)]
  have hof : ofWord (labelName position ++ ":").toList
      = .label (labelName position) := by
    rw [ofWord, hlabel]
    exact congrArg label String.ofList_toList
  rw [← hof]
  exact Spells.word hword

/-- No mnemonic looks like a number, a directive or a label. -/
theorem isName_mnemonic (op : Opcode) : IsName op.mnemonic := by
  cases op <;> exact ⟨by decide, by decide⟩

/-- Neither does the name of a kind. -/
theorem isName_kind (k : Kind) : IsName k.name := by
  cases k <;> exact ⟨by decide, by decide⟩

end Token

namespace Statement

open Token

/-- The line is one line of text and asks for these statements. -/
structure Asks (line : String) (statements : List Statement) : Prop where
  isLine : Text.IsLine line.toList
  ofLine : ofLine line.toList = .ok statements

/-- A line asks for what its tokens are the statements of. -/
theorem Asks.of_spells {line : String} {tokens : List Token}
    {statements : List Statement} (h : Spells line.toList tokens)
    (hs : ofTokens tokens = .ok statements) :
    Asks line statements := by
  refine ⟨h.isLine, ?_⟩
  rw [Statement.ofLine, h.scan]
  exact hs

/-- An empty line asks for nothing. -/
theorem asks_empty : Asks "" [] :=
  ⟨fun _ hc => absurd hc List.not_mem_nil, rfl⟩

theorem asks_label (position : Nat) :
    Asks (labelName position ++ ":") [label (labelName position)] :=
  .of_spells (Spells.labelDefinition position) rfl

-- ============================================================== directives

/-- The entry directive asks for the function that it names. -/
theorem asks_entry {name : String} (hn : IsName name) :
    Asks (".entry " ++ name) [entry name] := by
  have hspells : Spells (".entry " ++ name).toList
      [.directive "entry", .ident name] := by
    rw [String.toList_append]
    exact Spells.cons ".entry".toList (by decide) (Spells.lastName hn)
  exact .of_spells hspells rfl

/-- The counts of a function can be read back. -/
structure HasCounts (f : Function) : Prop where
  params : f.params < 0x8000000000000000
  locals : f.locals < 0x8000000000000000

/-- A written count is taken as itself when it fits 64 bits. -/
theorem takeCount_toString {head : String} {expected n : Nat}
    (h : n < 0x8000000000000000) (rest : List Token) :
    takeCount head expected (.number (toString n) :: rest)
      = .ok (n, rest) := by
  rw [takeCount, spelled, Literal.count?_toString h]
  rfl

/-- The tokens of a declaration make it, with the start that those behind the
counts spell. -/
theorem ofFunction_eq {f : Function} (hc : HasCounts f) {rest : List Token}
    {start : Start} (hstart : takeStart rest = .ok (start, [])) :
    ofDirective "func" (.ident f.name :: .number (toString f.params)
      :: .number (toString f.locals) :: rest)
        = .ok (function f.name f.params f.locals start) := by
  show ofFunction _ = _
  simp only [ofFunction, takeName, Bind.bind, Except.bind,
    takeCount_toString hc.params, takeCount_toString hc.locals, hstart]
  rfl

/-- A written declaration scans to its directive, its name and its counts,
with whatever the rest of the line scans to behind them. -/
theorem spells_function {f : Function} (hn : IsName f.name) {rest : List Char}
    {tokens : List Token} (h : Spells ((toString f.locals).toList ++ rest)
      (.number (toString f.locals) :: tokens)) :
    Spells ((functionText f).toList ++ rest)
      (.directive "func" :: .ident f.name :: .number (toString f.params)
        :: .number (toString f.locals) :: tokens) := by
  have htext : (functionText f).toList ++ rest
      = ".func".toList ++ ' ' :: (f.name.toList
          ++ ' ' :: ((toString f.params).toList
          ++ ' ' :: ((toString f.locals).toList ++ rest))) := by
    simp [functionText, String.toList_append]
  rw [htext]
  exact Spells.cons ".func".toList (by decide)
    (Spells.name hn (Spells.numeral (isNumeral_nat _) h))

/-- A written declaration by itself asks for a function that starts here. -/
theorem asks_function {f : Function} (hn : IsName f.name) (hc : HasCounts f) :
    Asks (functionText f) [function f.name f.params f.locals .here] := by
  have hlocals : Spells ((toString f.locals).toList ++ [])
      [.number (toString f.locals)] := by
    rw [List.append_nil]
    exact Spells.lastNumeral (isNumeral_nat _)
  have hspells := spells_function hn hlocals
  rw [List.append_nil] at hspells
  refine .of_spells hspells ?_
  rw [ofTokens, ofFunction_eq hc rfl]
  rfl

/-- Where a function declared at the top says that it starts. -/
def headerStart (p : Program) (f : Function) : Start :=
  if f.entry ≤ p.length then .label (labelName f.entry) else .index f.entry

/-- A written declaration with one more word asks for a function that starts
where the word says. -/
theorem asks_function_start {f : Function} (hn : IsName f.name)
    (hc : HasCounts f) {text : String} {token : Token} {start : Start}
    (htext : Spells text.toList [token])
    (hstart : takeStart [token] = .ok (start, [])) :
    Asks (functionText f ++ " " ++ text)
      [function f.name f.params f.locals start] := by
  have hline : (functionText f ++ " " ++ text).toList
      = (functionText f).toList ++ ' ' :: text.toList := by
    simp [String.toList_append]
  have hspells :=
    spells_function hn (Spells.numeral (isNumeral_nat f.locals) htext)
  rw [← hline] at hspells
  refine .of_spells hspells ?_
  rw [ofTokens, ofFunction_eq hc hstart]
  rfl

/-- What is written for a function at the top asks for it to start at the
label of its entry or, where no label can stand, at the index itself. -/
theorem asks_header {p : Program} {f : Function} (hn : IsName f.name)
    (hc : HasCounts f)
    (hentry : p.length < f.entry → f.entry < 0x8000000000000000) :
    Asks (headerLine p f)
      [function f.name f.params f.locals (headerStart p f)] := by
  unfold headerLine headerStart
  by_cases hle : f.entry ≤ p.length
  · rw [if_pos hle, if_pos hle]
    exact asks_function_start hn hc
      (Spells.lastName (isName_labelName f.entry)) rfl
  · rw [if_neg hle, if_neg hle]
    refine asks_function_start hn hc
      (Spells.lastNumeral (isNumeral_nat f.entry)) ?_
    rw [takeStart, spelled,
      Literal.count?_toString (hentry (Nat.lt_of_not_le hle))]
    rfl

-- =============================================================== constants

/-- The canonical text of a binary number is a name or a numeral and is read
as that number. -/
structure ReadsBack (x : Binary64) : Prop where
  isToken : IsName x.toText ∨ IsNumeral x.toText
  ofText? : Binary64.ofText? x.toText = some x

/-- A value whose constant is read back. All but some numbers are. -/
def Writable : Value → Prop
  | .float x => ReadsBack x
  | .decimal d => d.mantissa ≠ -0x80000000000000000000000000000000
  | _ => True

/-- The tokens of a literal, and that they are read as the value. -/
theorem spells_constant {v : Value} (hv : Writable v) (hnull : v ≠ .null) :
    ∃ token, literal? v.kind token = some v
      ∧ Spells (constantText v).toList [.ident v.kind.name, token] := by
  have hspells : ∀ {text : List Char} {token : Token}, Spells text [token] →
      Spells (v.kind.name.toList ++ ' ' :: text) [.ident v.kind.name, token] :=
    fun h => Spells.name (isName_kind v.kind) h
  have hline : ∀ text : String, (v.kind.name ++ " " ++ text).toList
      = v.kind.name.toList ++ ' ' :: text.toList := by
    simp [String.toList_append]
  cases v with
  | null => exact absurd rfl hnull
  | int n =>
      refine ⟨.number (toString n.toInt), ?_, ?_⟩
      · rw [Value.kind, literal?, Literal.integer?_int64]
        exact congrArg (some ∘ Value.int) n.ofInt_toInt
      · unfold constantText
        rw [hline]
        exact hspells (Spells.lastNumeral (isNumeral_int n.toInt))
  | float x =>
      -- the text is a name, as that of an infinity, or a numeral
      obtain ⟨hname | hnumeral, hread⟩ := hv
      · refine ⟨.ident x.toText, ?_, ?_⟩
        · rw [Value.kind, literal?, hread]
          rfl
        · unfold constantText
          rw [hline]
          exact hspells (Spells.lastName hname)
      · refine ⟨.number x.toText, ?_, ?_⟩
        · rw [Value.kind, literal?, hread]
          rfl
        · unfold constantText
          rw [hline]
          exact hspells (Spells.lastNumeral hnumeral)
  | decimal d =>
      refine ⟨.number d.toText, ?_, ?_⟩
      · rw [Value.kind, literal?, Decimal.ofText_toText hv]
        rfl
      · unfold constantText
        rw [hline]
        exact hspells (Spells.lastNumeral (isNumeral_decimal d))
  | bool b =>
      refine ⟨.ident (Value.bool b).toText, ?_, ?_⟩
      · cases b <;> decide
      · unfold constantText
        rw [hline]
        refine hspells (Spells.lastName ?_)
        cases b <;> exact ⟨by decide, by decide⟩
  | string s =>
      refine ⟨.string s, rfl, ?_⟩
      have htext : (constantText (.string s)).toList
          = "string".toList ++ ' ' :: (Text.escape s).toList := by
        simp [constantText, String.toList_append]
      rw [htext]
      exact hspells (Spells.escape s)

theorem takeKind_name (k : Kind) (rest : List Token) :
    takeKind (.ident k.name :: rest) = .ok (k, rest) := by
  cases k <;> rfl

/-- A written constant asks for its value, if that can be written at all. -/
theorem asks_constant {v : Value} (hv : Writable v) :
    Asks (".const " ++ constantText v) [constant v] := by
  have hspells : ∀ {tokens}, Spells (constantText v).toList tokens →
      Spells (".const " ++ constantText v).toList
        (.directive "const" :: tokens) := fun h => by
    rw [String.toList_append]
    exact Spells.cons ".const".toList (by decide) h
  by_cases hnull : v = .null
  · subst hnull
    refine .of_spells (hspells (Spells.lastName (isName_kind .null))) ?_
    rfl
  · obtain ⟨token, hliteral, htokens⟩ := spells_constant hv hnull
    have hkind : v.kind ≠ .null := by
      cases v with
      | null => exact absurd rfl hnull
      | _ => exact fun h => nomatch h
    refine .of_spells (hspells htokens) ?_
    rw [ofTokens]
    show (fun s => [s]) <$> ofConstant _ = _
    simp only [ofConstant, takeKind_name, Bind.bind, Except.bind,
      if_neg hkind, takeLiteral, hliteral]
    rfl

-- ============================================================ instructions

/-- The operand that the text of an instruction has. -/
def writtenOperand (p : Program) (i : Instruction) : Operand :=
  match i.opcode.operandKind with
  | .unused => .absent
  | .constant | .slot | .syscall => .number i.operand
  | .target =>
    match target? p i with
    | some target => .label (labelName target)
    | none => .number i.operand
  | .function =>
    match i.index?.bind (p.functions[·]?) with
    | some f => .function f.name
    | none => .number i.operand

theorem ofMnemonic?_mnemonic (op : Opcode) :
    Opcode.ofMnemonic? op.mnemonic = some op := by
  cases op <;> decide

/-- An operand that the opcode takes completes its instruction. -/
theorem ofInstruction_eq {op : Opcode} {args : List Token} {operand : Operand}
    (h : (if op.operandKind = .unused then .ok (.absent, args)
      else takeOperand op args)
      = .ok (operand, [])) :
    ofTokens (.ident op.mnemonic :: args) = .ok [instruction op operand] := by
  rw [ofTokens, ofInstruction, ofMnemonic?_mnemonic]
  by_cases hunused : op.operandKind = .unused
  · rw [if_pos hunused] at h
    cases h
    simp only [hunused, if_true]
    rfl
  · rw [if_neg hunused] at h
    simp only [hunused, if_false, h, Bind.bind, Except.bind]
    rfl

/-- The text of an instruction spells its mnemonic and, unless there is none,
its operand. -/
theorem spells_instruction {p : Program}
    (hnames : ∀ f ∈ p.functions, IsName f.name) (i : Instruction) :
    ∃ args,
      Spells (instructionText p i).toList (.ident i.opcode.mnemonic :: args)
      ∧ (if i.opcode.operandKind = .unused then .ok (.absent, args)
          else takeOperand i.opcode args) = .ok (writtenOperand p i, []) := by
  have hline : ∀ text : String, (i.opcode.mnemonic ++ " " ++ text).toList
      = i.opcode.mnemonic.toList ++ ' ' :: text.toList := by
    simp [String.toList_append]
  have hspells : ∀ {text : String} {token : Token},
      Spells text.toList [token] →
      Spells (i.opcode.mnemonic ++ " " ++ text).toList
        [.ident i.opcode.mnemonic, token] := fun h => by
    rw [hline]
    exact Spells.name (isName_mnemonic i.opcode) h
  have hplain :
      Spells (i.opcode.mnemonic ++ " " ++ toString i.operand.toInt).toList
        [.ident i.opcode.mnemonic, .number (toString i.operand.toInt)] :=
    hspells (Spells.lastNumeral (isNumeral_int _))
  have hnumber : takeOperand i.opcode [.number (toString i.operand.toInt)]
      = .ok (.number i.operand, []) := by
    rw [takeOperand, spelled, Literal.operand?_toString]
    rfl
  unfold instructionText writtenOperand
  cases hkind : i.opcode.operandKind with
  -- an operand that is not read is not written either
  | unused => exact ⟨[], Spells.lastName (isName_mnemonic i.opcode), rfl⟩
  | constant => exact ⟨_, hplain, hnumber⟩
  | slot => exact ⟨_, hplain, hnumber⟩
  | syscall => exact ⟨_, hplain, hnumber⟩
  | target =>
      cases target? p i with
      | none => exact ⟨_, hplain, hnumber⟩
      | some target =>
          refine ⟨_, hspells (Spells.lastName (isName_labelName target)), ?_⟩
          rw [if_neg (by decide), takeOperand, hkind]
  | function =>
      cases hf : i.index?.bind (p.functions[·]?) with
      | none => exact ⟨_, hplain, hnumber⟩
      | some f =>
          -- a function that is there is called by its name
          obtain ⟨n, -, hn⟩ := Option.bind_eq_some_iff.mp hf
          refine ⟨_,
            hspells (Spells.lastName (hnames f (Array.mem_of_getElem? hn))),
            ?_⟩
          rw [if_neg (by decide), takeOperand, hkind]

/-- A written instruction asks for its opcode with the operand as it was
written. -/
theorem asks_instruction {p : Program}
    (hnames : ∀ f ∈ p.functions, IsName f.name) (i : Instruction) :
    Asks ("    " ++ instructionText p i)
      [instruction i.opcode (writtenOperand p i)] := by
  obtain ⟨args, hspells, hoperand⟩ := spells_instruction hnames i
  refine .of_spells ?_ (ofInstruction_eq hoperand)
  rw [String.toList_append]
  exact hspells.blank.blank.blank.blank

end Statement

-- ============================================================= the listing

open Statement Token

/-- The lines, one after the other, ask for these statements. -/
inductive AsksAll : List String → List Statement → Prop
  | nil : AsksAll [] []
  | cons {line : String} {lines : List String} {ss ss' : List Statement}
    (h : Asks line ss) (hs : AsksAll lines ss') :
    AsksAll (line :: lines) (ss ++ ss')

namespace AsksAll

/-- Lines asked for one after the other ask for the statements one after the
other. -/
theorem append {lines lines' : List String} {ss ss' : List Statement}
    (h : AsksAll lines ss) (h' : AsksAll lines' ss') :
    AsksAll (lines ++ lines') (ss ++ ss') := by
  induction h with
  | nil => exact h'
  | cons hline _ ih =>
      rw [List.cons_append, List.append_assoc]
      exact .cons hline ih

theorem single {line : String} {ss : List Statement} (h : Asks line ss) :
    AsksAll [line] ss := by
  have hsingle := AsksAll.cons h .nil
  rw [List.append_nil] at hsingle
  exact hsingle

/-- Lines written for each element ask for what is asked for each element. -/
theorem flatMap {α : Type} {xs : List α} {lines : α → List String}
    {ss : α → List Statement} (h : ∀ x ∈ xs, AsksAll (lines x) (ss x)) :
    AsksAll (xs.flatMap lines) (xs.flatMap ss) := by
  induction xs with
  | nil => exact .nil
  | cons x xs ih =>
      rw [List.flatMap_cons, List.flatMap_cons]
      exact (h x List.mem_cons_self).append
        (ih fun y hy => h y (List.mem_cons_of_mem x hy))

theorem map {α : Type} {xs : List α} {line : α → String} {s : α → Statement}
    (h : ∀ x ∈ xs, Asks (line x) [s x]) :
    AsksAll (xs.map line) (xs.map s) := by
  rw [List.map_eq_flatMap, List.map_eq_flatMap]
  exact flatMap fun x hx => single (h x hx)

/-- Lines that ask for statements have no line endings within them. -/
theorem isLine {lines : List String} {ss : List Statement}
    (h : AsksAll lines ss) :
    ∀ l ∈ lines, Text.IsLine l.toList := by
  induction h with
  | nil => exact fun l hl => absurd hl List.not_mem_nil
  | cons hline _ ih =>
      intro l hl
      rcases List.mem_cons.mp hl with rfl | hl
      · exact hline.isLine
      · exact ih l hl

end AsksAll

/-- A program all of whose parts are read back from the lines that the listing
has for them. -/
structure Listable (p : Program) : Prop where
  names : ∀ f ∈ p.functions, IsName f.name
  nodup : (p.functions.toList.map (·.name)).Nodup
  counts : ∀ f ∈ p.functions, HasCounts f
  entries : ∀ f ∈ p.functions, p.length < f.entry →
    f.entry < 0x8000000000000000
  constants : ∀ v ∈ p.constants, Writable v
  /-- Instructions have nothing in the fields that they do not use. -/
  tidy : ∀ i ∈ p.code,
    i.spare = 0 ∧ (i.opcode.operandKind = .unused → i.operand = 0)

/-- The statements of one position. -/
def positionStatements (p : Program) (starts : List Function)
    (position : Nat) : List Statement :=
  (starts.filter (·.entry = position)).map
    (fun f => .function f.name f.params f.locals .here)
    ++ (if position ∈ labelled p then [.label (labelName position)] else [])
    ++ (match p.code[position]? with
      | some i => [.instruction i.opcode (writtenOperand p i)]
      | none => [])

/-- The functions that are declared where they start. -/
def inlineStarts (p : Program) : List Function :=
  if declaredInline p then p.functions.toList else []

/-- The functions that are declared at the top. -/
def headers (p : Program) : List Function :=
  if declaredInline p then [] else p.functions.toList

/-- The statements of a listing. -/
def listingStatements (p : Program) : List Statement :=
  p.constants.toList.map .constant
    ++ (headers p).map
      (fun f => .function f.name f.params f.locals (headerStart p f))
    ++ [.entry p.entryFunction.name]
    ++ (List.range (p.length + 1)).flatMap
      (positionStatements p (inlineStarts p))

variable {p : Program}

/-- The lines at a position ask for the functions that start there, for its
label and for its instruction. -/
theorem Listable.positionLines (h : Listable p) {starts : List Function}
    (hstarts : ∀ f ∈ starts, f ∈ p.functions) (position : Nat) :
    AsksAll (positionLines p starts (Std.TreeSet.ofList (labelled p)) position)
      (positionStatements p starts position) := by
  have hlabelled : (Std.TreeSet.ofList (labelled p)).contains position = true
      ↔ position ∈ labelled p := by
    rw [Std.TreeSet.contains_ofList, List.contains_iff_mem]
  unfold Assembly.positionLines positionStatements
  refine (AsksAll.append ?_ ?_).append ?_
  · rw [List.map_eq_flatMap]
    refine AsksAll.flatMap fun f hf => ?_
    have hmem := hstarts f (List.mem_filter.mp hf).1
    exact .cons asks_empty
      (.single (asks_function (h.names f hmem) (h.counts f hmem)))
  · by_cases hposition : position ∈ labelled p
    · rw [if_pos (hlabelled.mpr hposition), if_pos hposition]
      exact .single (asks_label position)
    · rw [if_neg (mt hlabelled.mp hposition), if_neg hposition]
      exact .nil
  · cases p.code[position]? with
    | none => exact .nil
    | some i => exact .single (asks_instruction h.names i)

/-- The lines of a listing are read as its statements. -/
theorem Listable.listingLines (h : Listable p) :
    AsksAll (listingLines p) (listingStatements p) := by
  have hmem : ∀ f ∈ p.functions.toList, f ∈ p.functions :=
    fun f hf => Array.mem_toList_iff.mp hf
  have hentry : p.entryFunction ∈ p.functions := Array.getElem_mem p.entry_lt
  unfold Assembly.listingLines listingStatements headers inlineStarts
  refine ((AsksAll.append ?_ ?_).append ?_).append ?_
  · exact AsksAll.map
      fun v hv => asks_constant (h.constants v (Array.mem_toList_iff.mp hv))
  · split
    · exact .nil
    · refine AsksAll.map fun f hf => ?_
      exact asks_header (h.names f (hmem f hf)) (h.counts f (hmem f hf))
        (h.entries f (hmem f hf))
  · exact .single (asks_entry (h.names _ hentry))
  · refine AsksAll.flatMap fun position _ =>
      h.positionLines (fun f hf => ?_) position
    split at hf
    · exact hmem f hf
    · exact absurd hf List.not_mem_nil

end StackMachine.Assembly
