/-
What texts are decimal numbers. Every text has one division into a sign, what
stands before its first point and what stands behind it (`Divides`). These
parts decide what becomes of it: `Outcome` has one case for each of the four
refusals, in their order, and one for a number, and `Divides.outcome` says
that reading a text has an outcome of its parts. What the grammar calls a
numeral is a text whose parts are digits, so all that is said of numerals is
read off the outcome.

The digits are read from the left, ten times what was read and the next one
more; the number they stand for counts the places from the right. That the
two agree is `decimalNumber_eq_placeValue`.

The last section is about texts that were written. They are read back as the
number they were written for, with one exception: the magnitude of the least
mantissa is out of range before its sign is put on.
-/
import Mathlib.Data.Nat.Digits.Defs
import StackMachine.Proofs.Decimal.NormalForm

namespace StackMachine

-- ================================================================ digits

/-- The number that digits stand for by their places, the last of which
counts ones. -/
def placeValue (digits : List Char) : Nat :=
  Nat.ofDigits 10 (digits.reverse.map Text.digitValue)

/-- Reading digits from the left gives the number that they stand for. -/
theorem Text.decimalNumber_eq_placeValue (digits : List Char) :
    decimalNumber digits = placeValue digits := by
  induction digits using List.reverseRecOn with
  | nil => rfl
  | append_singleton digits c ih =>
      have hread : decimalNumber (digits ++ [c]) = decimalNumber digits * 10
          + digitValue c :=
        number_concat ..
      rw [hread, ih, placeValue, placeValue, List.reverse_concat,
        List.map_cons, Nat.ofDigits_cons]
      ring

/-- Digits behind others move these to the left by their number. -/
theorem placeValue_append (whole fraction : List Char) :
    placeValue (whole ++ fraction)
      = placeValue whole * tenTo fraction.length + placeValue fraction := by
  have hten : 10 ^ fraction.length = tenTo fraction.length := rfl
  rw [placeValue, placeValue, placeValue, List.reverse_append, List.map_append,
    Nat.ofDigits_append, List.length_map, List.length_reverse, hten]
  ring

namespace Decimal

-- =============================================================== grammar

/-- What may stand in front of the digits. -/
inductive Sign where
  | none
  | plus
  | minus

namespace Sign

def text : Sign → List Char
  | none => []
  | plus => ['+']
  | minus => ['-']

def isMinus : Sign → Bool
  | minus => true
  | _ => false

/-- A magnitude with the sign put on. -/
def apply (sign : Sign) (x : ℚ) : ℚ := if sign.isMinus then -x else x

end Sign

/-- The number that is written with digits before and behind the point. -/
def written (sign : Sign) (whole fraction : List Char) : ℚ :=
  sign.apply (placeValue whole + placeValue fraction / tenTo fraction.length)

/-- A numeral: an optional sign, digits, and optionally a point with digits
behind it. Not all of the digits are missing. -/
structure Numeral where
  sign : Sign
  whole : List Char
  /-- The digits behind the point, if there is one. -/
  pointed : Option (List Char)
  isDigit : ∀ c ∈ whole ++ pointed.getD [], c.isDigit
  ne_nil : whole ++ pointed.getD [] ≠ []

namespace Numeral

/-- The digits behind the point. -/
def fraction (n : Numeral) : List Char := n.pointed.getD []

def text (n : Numeral) : List Char :=
  n.sign.text ++ n.whole ++ n.pointed.elim [] ('.' :: ·)

/-- The number that a numeral stands for. -/
def value (n : Numeral) : ℚ := written n.sign n.whole n.fraction

end Numeral

-- ============================================================== division

/-- How any text falls into a sign, what stands before its first point and
what stands behind it. The sign is a single character, and what follows it may
be anything. -/
structure Divides (text : List Char) (sign : Sign)
    (whole fraction : List Char) : Prop where
  text_eq : text = sign.text ++ whole ∧ fraction = []
    ∨ text = sign.text ++ whole ++ '.' :: fraction
  /-- The point is the first one. -/
  point : '.' ∉ whole
  /-- A sign in front is the sign. -/
  bare : sign = .none → text.head? ≠ some '+' ∧ text.head? ≠ some '-'

/-- Every text is divided. -/
theorem exists_divides (text : List Char) :
    ∃ sign whole fraction, Divides text sign whole fraction := by
  obtain ⟨sign, body, htext, hbare⟩ : ∃ (sign : Sign) (body : List Char),
      text = sign.text ++ body
      ∧ (sign = .none → text.head? ≠ some '+' ∧ text.head? ≠ some '-') := by
    by_cases hplus : text.head? = some '+'
    · obtain ⟨body, rfl⟩ := List.head?_eq_some_iff.mp hplus
      exact ⟨.plus, body, rfl, nofun⟩
    · by_cases hminus : text.head? = some '-'
      · obtain ⟨body, rfl⟩ := List.head?_eq_some_iff.mp hminus
        exact ⟨.minus, body, rfl, nofun⟩
      · exact ⟨.none, text, rfl, fun _ => ⟨hplus, hminus⟩⟩
  by_cases hpoint : '.' ∈ body
  · obtain ⟨whole, fraction, rfl, hfirst⟩ := List.eq_append_cons_of_mem hpoint
    exact ⟨sign, whole, fraction, .inr (by rw [htext, List.append_assoc]),
      hfirst, hbare⟩
  · exact ⟨sign, body, [], .inl ⟨htext, rfl⟩, hpoint, hbare⟩

/-- A text is read as what follows its sign, which falls into the parts at
the point. -/
theorem Divides.exists_body {text : String} {sign : Sign}
    {whole fraction : List Char}
    (h : Divides text.toList sign whole fraction) :
    ∃ body, ofText text = ofUnsigned sign.isMinus body
      ∧ splitPoint body = (whole, fraction) := by
  obtain ⟨body, htext, hsplit⟩ : ∃ body, text.toList = sign.text ++ body
      ∧ splitPoint body = (whole, fraction) := by
    rcases h.text_eq with ⟨htext, rfl⟩ | htext
    · exact ⟨whole, htext, splitPoint_bare h.point⟩
    · exact ⟨whole ++ '.' :: fraction, by rw [htext, List.append_assoc],
        splitPoint_point h.point fraction⟩
  refine ⟨body, ?_, hsplit⟩
  unfold ofText
  cases sign with
  | plus => rw [htext]; rfl
  | minus => rw [htext]; rfl
  | none =>
      -- without a sign the text does not begin with one
      obtain ⟨hplus, hminus⟩ := h.bare rfl
      obtain rfl : text.toList = body := htext
      split
      · next heq => exact absurd (by rw [heq]; rfl) hminus
      · next heq => exact absurd (by rw [heq]; rfl) hplus
      · rfl

-- ============================================================== outcomes

/-- What becomes of a text with these parts: the first refusal that applies,
or a number. -/
inductive Outcome (sign : Sign)
    (whole fraction : List Char) : Except LiteralError Decimal → Prop
  | empty (hnil : whole ++ fraction = []) :
    Outcome sign whole fraction (.error .empty)
  | invalidDigit (hne : whole ++ fraction ≠ []) {c : Char}
      (hmem : c ∈ whole ++ fraction) (hc : ¬ c.isDigit) :
    Outcome sign whole fraction (.error .invalidDigit)
  | tooManyFractionalDigits (hne : whole ++ fraction ≠ [])
      (hdigit : ∀ c ∈ whole ++ fraction, c.isDigit)
      (hlong : maxScale < fraction.length) :
      Outcome sign whole fraction (.error .tooManyFractionalDigits)
  | outOfRange (hne : whole ++ fraction ≠ [])
      (hdigit : ∀ c ∈ whole ++ fraction, c.isDigit)
      (hshort : fraction.length ≤ maxScale)
      (hlarge : 0x80000000000000000000000000000000
        ≤ placeValue (whole ++ fraction)) :
      Outcome sign whole fraction (.error .outOfRange)
  | number (hne : whole ++ fraction ≠ [])
      (hdigit : ∀ c ∈ whole ++ fraction, c.isDigit)
      (hshort : fraction.length ≤ maxScale)
      (hsmall : placeValue (whole ++ fraction)
        < 0x80000000000000000000000000000000)
      {d : Decimal} (hvalue : d.value = written sign whole fraction) :
    Outcome sign whole fraction (.ok d)

/-- The digits of a numeral as one number, with the point moved behind the
last of them. -/
theorem written_eq_div (sign : Sign) (whole fraction : List Char) :
    written sign whole fraction
      = signed sign.isMinus (placeValue (whole ++ fraction))
        / tenTo fraction.length := by
  have hten := (tenTo_rat_pos fraction.length).ne'
  have hmagnitude : (placeValue whole : ℚ) + placeValue fraction
      / tenTo fraction.length
      = placeValue (whole ++ fraction) / tenTo fraction.length := by
    rw [placeValue_append]
    push_cast
    field_simp
  rw [written, hmagnitude, Sign.apply, signed]
  split
  · push_cast
    ring
  · push_cast
    rfl

/-- A text without its sign has an outcome of its parts. -/
theorem outcome_ofUnsigned (sign : Sign) {body whole fraction : List Char}
    (h : splitPoint body = (whole, fraction)) :
    Outcome sign whole fraction (ofUnsigned sign.isMinus body) := by
  have hmantissa := mantissa?_eq sign.isMinus (whole ++ fraction)
  unfold ofUnsigned
  simp only [h]
  split
  · next hnil => exact .empty (by simpa using hnil)
  · next hne =>
    have hne : whole ++ fraction ≠ [] := by simpa using hne
    split
    · next hdigit =>
      obtain ⟨c, hmem, hc⟩ : ∃ c ∈ whole ++ fraction, ¬ c.isDigit := by
        simpa only [Bool.not_eq_true', List.all_eq_false] using hdigit
      exact .invalidDigit hne hmem hc
    · next hdigit =>
      have hdigit : ∀ c ∈ whole ++ fraction, c.isDigit := by
        simpa only [Bool.not_eq_true', Bool.not_eq_false, List.all_eq_true]
          using hdigit
      split
      · next hshort =>
        have hplaces := Text.decimalNumber_eq_placeValue (whole ++ fraction)
        -- reading digit by digit fails exactly if the number of all digits
        -- is out of range
        by_cases hin : InWideRange (Text.decimalNumber (whole ++ fraction))
        · have hsmall := inWideRange_natCast.mp hin
          rw [hplaces] at hsmall
          rw [hmantissa, dif_pos hin]
          refine .number hne hdigit hshort hsmall ?_
          rw [value_normal, written_eq_div, ← hplaces]
        · have hlarge := mt inWideRange_natCast.mpr hin
          rw [hplaces] at hlarge
          rw [hmantissa, dif_neg hin]
          exact .outOfRange hne hdigit hshort (Nat.le_of_not_lt hlarge)
      · next hlong =>
        exact .tooManyFractionalDigits hne hdigit (Nat.lt_of_not_le hlong)

/-- Reading a text has an outcome of its parts. -/
theorem Divides.outcome {text : String} {sign : Sign}
    {whole fraction : List Char}
    (h : Divides text.toList sign whole fraction) :
    Outcome sign whole fraction (ofText text) := by
  obtain ⟨body, htext, hsplit⟩ := h.exists_body
  rw [htext]
  exact outcome_ofUnsigned sign hsplit

/-- The parts leave no choice. -/
theorem Outcome.unique {sign : Sign} {whole fraction : List Char}
    {r r' : Except LiteralError Decimal} (h : Outcome sign whole fraction r)
    (h' : Outcome sign whole fraction r') : r = r' := by
  cases h with
  | empty hnil => cases h' <;> grind
  | invalidDigit hne hmem hc => cases h' <;> grind
  | tooManyFractionalDigits hne hdigit hlong => cases h' <;> grind
  | outOfRange hne hdigit hshort hlarge => cases h' <;> grind
  | number hne hdigit hshort hsmall hvalue =>
      cases h' with
      -- mantissa and scale are not compared: a number in normal
      -- form is its value
      | number _ _ _ _ hvalue' => rw [value_inj.mp (hvalue.trans hvalue'.symm)]
      | _ => grind

/-- Reading a text has the outcome of its parts and no other. -/
theorem Divides.ofText_eq_iff {text : String} {sign : Sign}
    {whole fraction : List Char} (h : Divides text.toList sign whole fraction)
    {r : Except LiteralError Decimal} :
    ofText text = r ↔ Outcome sign whole fraction r :=
  ⟨fun hr => hr ▸ h.outcome, fun hr => h.outcome.unique hr⟩

-- ============================================================== numerals

/-- Behind its sign a numeral has digits and a point only. -/
theorem Numeral.isDigit_or_point (n : Numeral) {c : Char}
    (hc : c ∈ n.whole ++ n.pointed.elim [] ('.' :: ·)) :
    c.isDigit ∨ c = '.' := by
  obtain ⟨sign, whole, pointed, hdigit, hne⟩ := n
  rcases List.mem_append.mp hc with hc | hc
  · exact .inl (hdigit c (List.mem_append_left _ hc))
  · cases pointed with
    | none => exact absurd hc List.not_mem_nil
    | some fraction =>
        rcases List.mem_cons.mp hc with rfl | hc
        · exact .inr rfl
        · exact .inl (hdigit c (List.mem_append_right _ hc))

/-- The parts of a numeral are its own: no digit is taken for a sign or a
point. -/
theorem Numeral.divides (n : Numeral) :
    Divides n.text n.sign n.whole n.fraction := by
  refine ⟨?_, fun hmem => ?_, fun hnone => ?_⟩
  · rw [text, fraction]
    cases n.pointed with
    | none => exact .inl ⟨List.append_nil _, rfl⟩
    | some fraction => exact .inr rfl
  · exact absurd (n.isDigit _ (List.mem_append_left _ hmem)) (by decide)
  · have hhead : ∀ c, c.isDigit = false → c ≠ '.' → n.text.head? ≠ some c := by
      intro c hdigit hpoint hhead
      have hmem := List.mem_of_head? hhead
      rw [text, hnone, List.append_assoc] at hmem
      rcases n.isDigit_or_point hmem with hc | hc
      · rw [hdigit] at hc
        cases hc
      · exact hpoint hc
    exact ⟨hhead _ (by decide) (by decide), hhead _ (by decide) (by decide)⟩

/-- Parts that are digits are those of a numeral. -/
theorem Divides.exists_numeral {text : List Char} {sign : Sign}
    {whole fraction : List Char} (h : Divides text sign whole fraction)
    (hne : whole ++ fraction ≠ [])
    (hdigit : ∀ c ∈ whole ++ fraction, c.isDigit) :
    ∃ n : Numeral, text = n.text ∧ n.sign = sign ∧ n.whole = whole
      ∧ n.fraction = fraction := by
  rcases h.text_eq with ⟨htext, rfl⟩ | htext
  · exact ⟨⟨sign, whole, none, hdigit, hne⟩,
      by rw [htext, Numeral.text]; simp, rfl, rfl, rfl⟩
  · exact ⟨⟨sign, whole, some fraction, hdigit, hne⟩, htext, rfl, rfl, rfl⟩

/-- A text is read as a number exactly if it is a numeral with at most 28
digits behind the point and digits that spell no more than 127 bits hold; the
number is the one that the numeral stands for. Any other text is refused for
the first reason that applies: nothing stands around the first point, there is
something else than digits, there are too many digits behind the point, or
they spell a number out of range. -/
theorem ofText_grammar (text : String) :
    (∀ d, ofText text = .ok d ↔
      ∃ n : Numeral, text.toList = n.text ∧ n.fraction.length ≤ maxScale
        ∧ placeValue (n.whole ++ n.fraction)
          < 0x80000000000000000000000000000000
        ∧ d.value = n.value) ∧
    (∃ sign whole fraction, Divides text.toList sign whole fraction) ∧
    ∀ sign whole fraction, Divides text.toList sign whole fraction →
      (ofText text = .error .empty ↔ whole = [] ∧ fraction = []) ∧
      (ofText text = .error .invalidDigit ↔
        whole ++ fraction ≠ [] ∧ ∃ c ∈ whole ++ fraction, ¬ c.isDigit) ∧
      (ofText text = .error .tooManyFractionalDigits ↔
        whole ++ fraction ≠ [] ∧ (∀ c ∈ whole ++ fraction, c.isDigit)
          ∧ maxScale < fraction.length) ∧
      (ofText text = .error .outOfRange ↔
        whole ++ fraction ≠ [] ∧ (∀ c ∈ whole ++ fraction, c.isDigit)
          ∧ fraction.length ≤ maxScale
          ∧ 0x80000000000000000000000000000000
            ≤ placeValue (whole ++ fraction)) := by
  refine ⟨fun d => ⟨fun h => ?_, ?_⟩, exists_divides _,
    fun sign whole fraction h => ?_⟩
  · obtain ⟨sign, whole, fraction, hdivides⟩ := exists_divides text.toList
    cases hdivides.ofText_eq_iff.mp h with
    | number hne hdigit hshort hsmall hvalue =>
        obtain ⟨n, htext, rfl, rfl, rfl⟩ := hdivides.exists_numeral hne hdigit
        exact ⟨n, htext, hshort, hsmall, hvalue⟩
  · rintro ⟨n, htext, hshort, hsmall, hvalue⟩
    have hdivides := n.divides
    rw [← htext] at hdivides
    exact hdivides.ofText_eq_iff.mpr
      (.number n.ne_nil n.isDigit hshort hsmall hvalue)
  · -- each error is one constructor of the outcome
    simp only [h.ofText_eq_iff, ← List.append_eq_nil_iff]
    refine ⟨⟨fun | .empty hnil => hnil, .empty⟩,
      ⟨fun | .invalidDigit hne hmem hc => ⟨hne, _, hmem, hc⟩, ?_⟩,
      ⟨fun | .tooManyFractionalDigits hne hdigit hlong => ⟨hne, hdigit, hlong⟩,
        ?_⟩,
      ⟨fun | .outOfRange hne hdigit hshort hlarge =>
              ⟨hne, hdigit, hshort, hlarge⟩,
        ?_⟩⟩
    · rintro ⟨hne, c, hmem, hc⟩
      exact .invalidDigit hne hmem hc
    · rintro ⟨hne, hdigit, hlong⟩
      exact .tooManyFractionalDigits hne hdigit hlong
    · rintro ⟨hne, hdigit, hshort, hlarge⟩
      exact .outOfRange hne hdigit hshort hlarge

/-- Behind its first point a text may have another one, which is no digit. -/
theorem two_points_refused :
    Divides "+1.2.3".toList .plus ['1'] ['2', '.', '3']
      ∧ ofText "+1.2.3" = .error .invalidDigit := by
  have hdivides : Divides "+1.2.3".toList .plus ['1'] ['2', '.', '3'] :=
    ⟨.inr (by decide), by decide, nofun⟩
  have hpoint : ∃ c ∈ ['1'] ++ ['2', '.', '3'], ¬ c.isDigit :=
    ⟨'.', by decide, by decide⟩
  exact ⟨hdivides,
    ((ofText_grammar _).2.2 _ _ _ hdivides).2.1.mpr ⟨by decide, hpoint⟩⟩

-- ============================================================ round trips

/-- The text of a negative number is divided at its sign and its point. -/
theorem Spelling.divides {d : Decimal} {whole fraction : List Char}
    (h : Spelling d whole fraction) (hneg : d.mantissa < 0) :
    Divides d.toText.toList .minus whole fraction := by
  have htext := h.text
  rw [if_pos hneg] at htext
  refine ⟨?_, fun hmem => ?_, nofun⟩
  · by_cases hscale : d.scale = 0
    · rw [if_pos hscale] at htext
      exact .inl
        ⟨htext, List.eq_nil_of_length_eq_zero (h.length_fraction.trans hscale)⟩
    · rw [if_neg hscale, ← List.append_assoc] at htext
      exact .inr htext
  · exact absurd (h.isDigit _ (List.mem_append_left _ hmem)) (by decide)

/-- The digits of the least mantissa spell a number out of range. -/
theorem ofText_toText_least {d : Decimal}
    (h : d.mantissa = -0x80000000000000000000000000000000) :
    ofText d.toText = .error .outOfRange := by
  obtain ⟨whole, fraction, hd⟩ := exists_spelling d
  have hnumber := hd.number
  rw [Text.decimalNumber_eq_placeValue, h] at hnumber
  have hne : whole ++ fraction ≠ [] := fun hnil =>
    hd.whole_ne_nil (List.append_eq_nil_iff.mp hnil).1
  have hshort : fraction.length ≤ maxScale := by
    rw [hd.length_fraction]
    exact d.scale_le
  refine (hd.divides (by omega)).ofText_eq_iff.mpr
    (.outOfRange hne hd.isDigit hshort ?_)
  rw [hnumber]
  decide

/-- Dropping zeros neither makes nor changes the least mantissa. -/
theorem reduce_least_iff {m : Int} (hm : InWideRange m) (s : Nat) :
    (reduce m s).1 = -0x80000000000000000000000000000000
      ↔ m = -0x80000000000000000000000000000000 := by
  constructor
  · intro h
    have hle := natAbs_reduce_le m s
    unfold InWideRange at hm
    omega
  · rintro rfl
    -- a power of two has no zero to drop
    rw [reduce_eq_self (.inr (by decide))]

/-- The canonical text of a number that is made of a mantissa and a scale is
read back as that number exactly if the mantissa is not the least. The text of
the least one is refused as out of range. -/
theorem ofText_toText_iff {m : Wide} {s : Nat} {d : Decimal}
    (h : new? m s = some d) :
    (ofText d.toText = .ok d ↔ m.val ≠ -0x80000000000000000000000000000000) ∧
    (ofText d.toText = .error .outOfRange
      ↔ m.val = -0x80000000000000000000000000000000) := by
  have hmantissa : d.mantissa = -0x80000000000000000000000000000000
      ↔ m.val = -0x80000000000000000000000000000000 := by
    unfold new? at h
    split at h
    · cases h
      exact reduce_least_iff m.property s
    · cases h
  rw [ne_eq, ← hmantissa]
  by_cases hleast : d.mantissa = -0x80000000000000000000000000000000
  · simp [hleast, ofText_toText_least hleast]
  · simp [hleast, ofText_toText hleast]

/-- The largest mantissa is read back behind any point. -/
theorem largest_read_back :
    ∃ d, new? ⟨0x7fffffffffffffffffffffffffffffff, by decide⟩ 28 = some d
      ∧ ofText d.toText = .ok d := by
  obtain ⟨d, hd⟩ : ∃ d,
    new? ⟨0x7fffffffffffffffffffffffffffffff, by decide⟩ 28 = some d :=
      ⟨_, rfl⟩
  exact ⟨d, hd, (ofText_toText_iff hd).1.mpr (by decide)⟩

/-- The least mantissa has a text that is not read back. -/
theorem least_not_read_back :
    ∃ d, new? ⟨-0x80000000000000000000000000000000, by decide⟩ 0 = some d
      ∧ d.toText = "-170141183460469231731687303715884105728"
      ∧ ofText d.toText ≠ .ok d := by
  let d : Decimal :=
    ⟨-0x80000000000000000000000000000000, 0,
      by decide, Nat.zero_le _, .inl rfl⟩
  refine ⟨d, rfl, by decide +kernel, ?_⟩
  rw [ofText_toText_least rfl]
  nofun

end Decimal

end StackMachine
