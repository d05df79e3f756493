/-
Scanning reads back what was written word by word. A word is whatever the
scanner collects between blanks, semicolons and quotes; written with a blank
behind it, it comes back as the token it is by its shape (`scan_word_blank`). A
string literal comes back as its text (`scan_escape`).

The other direction is what the assembler's own names rest on: every name and
every number that a scan returns is such a word (`isName_of_scan`), so it can
be written into a line again.
-/
import StackMachine.Assembly.Token

namespace StackMachine.Text

-- ================================================================ lines

/-- The characters of a line: no part of a line ending is among them. -/
def IsLine (line : List Char) : Prop := ∀ c ∈ line, c ≠ '\n' ∧ c ≠ '\r'

theorem IsLine.newline_not_mem {line : List Char} (h : IsLine line) :
    '\n' ∉ line :=
  fun hmem => (h '\n' hmem).1 rfl

/-- Characters that do not end a line are read into it. -/
theorem linesFrom_read {line : List Char} (h : '\n' ∉ line)
    (read rest : List Char) :
    linesFrom read (line ++ rest) = linesFrom (line.reverse ++ read) rest := by
  induction line generalizing read with
  | nil => rfl
  | cons c line ih =>
      have hc : '\n' ≠ c := List.ne_of_not_mem_cons h
      have hline : '\n' ∉ line := List.not_mem_of_not_mem_cons h
      have hcons : linesFrom read (c :: (line ++ rest))
          = linesFrom (c :: read) (line ++ rest) := by
        rw [linesFrom]
        exact fun h => hc h.symm
      rw [List.cons_append, hcons, ih hline, List.reverse_cons,
        List.append_assoc, List.singleton_append]

/-- The characters before the first line feed are the first line. -/
theorem linesFrom_append {line : List Char} (h : '\n' ∉ line)
    (rest : List Char) :
    linesFrom [] (line ++ '\n' :: rest)
      = withoutReturn line :: linesFrom [] rest := by
  rw [linesFrom_read h, List.append_nil, linesFrom, List.reverse_reverse]

/-- A line without a carriage return has none to lose at its end. -/
theorem withoutReturn_eq_self {line : List Char} (h : IsLine line) :
    withoutReturn line = line := by
  unfold withoutReturn
  split
  · next hlast => exact absurd rfl (h '\r' (List.mem_of_getLast? hlast)).2
  · rfl

/-- The lines of a text are the lines it was put together from. -/
theorem lines_join {ls : List String} (h : ∀ l ∈ ls, IsLine l.toList) :
    lines (String.join (ls.map (· ++ "\n"))) = ls.map String.toList := by
  unfold lines
  induction ls with
  | nil => rfl
  | cons l ls ih =>
      have hl : IsLine l.toList := h l List.mem_cons_self
      rw [List.map_cons, String.join_cons, String.toList_append,
        String.toList_append, List.append_assoc]
      show linesFrom [] (l.toList ++ (['\n'] ++ _)) = _
      rw [List.singleton_append, linesFrom_append hl.newline_not_mem,
        withoutReturn_eq_self hl,
        ih fun l' hl' => h l' (List.mem_cons_of_mem l hl')]
      rfl

end StackMachine.Text

namespace StackMachine.Assembly.Token

-- ================================================================ words

/-- A character that a word may hold. -/
def IsPlain (c : Char) : Prop := Text.isBlank c = false ∧ c ≠ ';' ∧ c ≠ '"'

/-- What the scanner collects into one token. -/
structure IsWord (word : List Char) : Prop where
  ne_nil : word ≠ []
  plain : ∀ c ∈ word, IsPlain c

instance (c : Char) : Decidable (IsPlain c) :=
  inferInstanceAs (Decidable (_ ∧ _ ∧ _))

instance (word : List Char) : Decidable (IsWord word) :=
  decidable_of_iff (word ≠ [] ∧ word.all (fun c => IsPlain c) = true)
    ⟨fun h => ⟨h.1, by simpa using h.2⟩,
      fun h => ⟨h.ne_nil, by simpa using h.plain⟩⟩

/-- Line endings are blank, so none is among the characters of a word. -/
theorem IsPlain.isLine {word : List Char} (h : ∀ c ∈ word, IsPlain c) :
    Text.IsLine word := by
  intro c hc
  constructor
  · rintro rfl
    exact absurd (h _ hc).1 (by decide)
  · rintro rfl
    exact absurd (h _ hc).1 (by decide)

section Equations

-- One equation of the scanner for each mode and character; nothing
-- below unfolds it.
variable (read rest : List Char) (c : Char)

/-- The first character between two words decides what begins. -/
theorem scanFrom_between_cons :
    scanFrom .between (c :: rest) =
      if Text.isBlank c then scanFrom .between rest
      else if c = ';' then .ok []
      else if c = '"' then scanFrom (.string []) rest
      else scanFrom (.word [c]) rest := rfl

theorem scanFrom_word_nil :
    scanFrom (.word read) [] = .ok [ofWord read.reverse] :=
  rfl

/-- A character ends a word or goes into it. -/
theorem scanFrom_word_cons :
    scanFrom (.word read) (c :: rest) =
      if Text.isBlank c then
        (ofWord read.reverse :: ·) <$> scanFrom .between rest
      else if c = ';' then .ok [ofWord read.reverse]
      else if c = '"' then
        (ofWord read.reverse :: ·) <$> scanFrom (.string []) rest
      else scanFrom (.word (c :: read)) rest := rfl

/-- A character ends a string, escapes the next one or goes into the
string. -/
theorem scanFrom_string_cons :
    scanFrom (.string read) (c :: rest) =
      if c = '"' then
        (string (String.ofList read.reverse) :: ·) <$> scanFrom .between rest
      else if c = '\\' then scanFrom (.escape read) rest
      else scanFrom (.string (c :: read)) rest := rfl

/-- The character behind a backslash stands for another one or is refused. -/
theorem scanFrom_escape_cons :
    scanFrom (.escape read) (c :: rest) =
      match Text.unescape? c with
      | some d => scanFrom (.string (d :: read)) rest
      | none => .error (.badEscape c) := rfl

end Equations

/-- Characters that end no word all go into it. -/
theorem scanFrom_word {word : List Char} (h : ∀ c ∈ word, IsPlain c)
    (read rest : List Char) :
    scanFrom (.word read) (word ++ rest)
      = scanFrom (.word (word.reverse ++ read)) rest := by
  induction word generalizing read with
  | nil => rfl
  | cons c word ih =>
      obtain ⟨hblank, hsemi, hquote⟩ := h c List.mem_cons_self
      rw [List.cons_append, scanFrom_word_cons, hblank,
        if_neg Bool.false_ne_true, if_neg hsemi, if_neg hquote,
        ih fun d hd => h d (List.mem_cons_of_mem c hd), List.reverse_cons,
        List.append_assoc, List.singleton_append]

/-- A word between blanks is read up to its end. -/
theorem scanFrom_between {word : List Char} (h : IsWord word)
    (rest : List Char) :
    scanFrom .between (word ++ rest) = scanFrom (.word word.reverse) rest := by
  cases word with
  | nil => exact absurd rfl h.ne_nil
  | cons c word =>
      obtain ⟨hblank, hsemi, hquote⟩ := h.plain c List.mem_cons_self
      rw [List.cons_append, scanFrom_between_cons, hblank,
        if_neg Bool.false_ne_true, if_neg hsemi, if_neg hquote,
        scanFrom_word fun d hd => h.plain d (List.mem_cons_of_mem c hd),
        List.reverse_cons]

/-- A word at the end of a line. -/
theorem scan_word {word : List Char} (h : IsWord word) :
    scan word = .ok [ofWord word] := by
  have hscan := scanFrom_between h []
  rw [List.append_nil, scanFrom_word_nil, List.reverse_reverse] at hscan
  exact hscan

/-- A word with a blank behind it, and then whatever follows. -/
theorem scan_word_blank {word : List Char} (h : IsWord word)
    (rest : List Char) :
    scan (word ++ ' ' :: rest) = (ofWord word :: ·) <$> scan rest := by
  have hblank : Text.isBlank ' ' = true := by decide
  show scanFrom .between _ = _
  rw [scanFrom_between h, scanFrom_word_cons, if_pos hblank,
    List.reverse_reverse]
  rfl

/-- A blank in front of a line is passed over. -/
theorem scan_blank_cons {c : Char} (h : Text.isBlank c = true)
    (rest : List Char) :
    scan (c :: rest) = scan rest := by
  show scanFrom .between (c :: rest) = _
  rw [scanFrom_between_cons, if_pos h]
  rfl

-- ====================================================== string literals

theorem escapeLetter?_ne_none {c : Char}
    (h : c = '"' ∨ c = '\\' ∨ c = '\n' ∨ c = '\r') :
    Text.escapeLetter? c ≠ none := by
  rcases h with rfl | rfl | rfl | rfl <;> decide

/-- One character of a literal is read back, whatever follows it. -/
theorem scanFrom_escapeChar (c : Char) (read rest : List Char) :
    scanFrom (.string read) (Text.escapeChar c ++ rest)
      = scanFrom (.string (c :: read)) rest := by
  unfold Text.escapeChar
  cases hletter : Text.escapeLetter? c with
  | some letter =>
      show scanFrom (.string read) ('\\' :: letter :: rest) = _
      rw [scanFrom_string_cons, if_neg (by decide), if_pos rfl,
        scanFrom_escape_cons, Text.unescape?_of_escapeLetter? hletter]
  | none =>
      show scanFrom (.string read) (c :: rest) = _
      have hquote : c ≠ '"' := fun h => escapeLetter?_ne_none (.inl h) hletter
      have hslash : c ≠ '\\' :=
        fun h => escapeLetter?_ne_none (.inr (.inl h)) hletter
      rw [scanFrom_string_cons, if_neg hquote, if_neg hslash]

/-- By induction on the text, a written string is read back character by
character up to its closing quote. -/
theorem scanFrom_escaped (text read rest : List Char) :
    scanFrom (.string read) (text.flatMap Text.escapeChar ++ '"' :: rest)
      = (string (String.ofList (read.reverse ++ text)) :: ·)
        <$> scanFrom .between rest := by
  induction text generalizing read with
  | nil =>
      show scanFrom (.string read) ('"' :: rest) = _
      rw [scanFrom_string_cons, if_pos rfl, List.append_nil]
  | cons c text ih =>
      rw [List.flatMap_cons, List.append_assoc, scanFrom_escapeChar, ih,
        List.reverse_cons, List.append_assoc, List.singleton_append]

/-- A string literal is read back as its text. -/
theorem scan_escape (s : String) :
    scan (Text.escape s).toList = .ok [string s] := by
  rw [Text.escape, String.toList_ofList]
  show scanFrom .between ('"' :: _) = _
  have hblank : Text.isBlank '"' = false := by decide
  rw [scanFrom_between_cons, hblank, if_neg Bool.false_ne_true,
    if_neg (by decide), if_pos rfl, scanFrom_escaped, List.reverse_nil,
    List.nil_append, String.ofList_toList]
  rfl

/-- No character of a literal is written with part of a line ending. -/
theorem isLine_escapeChar (c : Char) : Text.IsLine (Text.escapeChar c) := by
  unfold Text.escapeChar
  intro d hd
  cases hletter : Text.escapeLetter? c with
  | some letter =>
      have hread := Text.unescape?_of_escapeLetter? hletter
      rw [hletter] at hd
      rcases List.mem_cons.mp hd with rfl | hd
      · decide
      · obtain rfl := List.mem_singleton.mp hd
        constructor
        · rintro rfl
          cases hread
        · rintro rfl
          cases hread
  | none =>
      rw [hletter] at hd
      obtain rfl := List.mem_singleton.mp hd
      constructor
      · exact fun h => escapeLetter?_ne_none (.inr (.inr (.inl h))) hletter
      · exact fun h => escapeLetter?_ne_none (.inr (.inr (.inr h))) hletter

/-- A literal fits on one line, whatever it spells. -/
theorem isLine_escape (s : String) : Text.IsLine (Text.escape s).toList := by
  intro c hc
  rw [Text.escape, String.toList_ofList] at hc
  rcases List.mem_cons.mp hc with rfl | hc
  · decide
  · rcases List.mem_append.mp hc with hc | hc
    · obtain ⟨d, -, hd⟩ := List.mem_flatMap.mp hc
      exact isLine_escapeChar d c hd
    · obtain rfl := List.mem_singleton.mp hc
      decide

-- ====================================================== what a scan returns

/-- A token that is not a string is the token of some word. -/
def Sound : Token → Prop
  | .string _ => True
  | t => ∃ word, IsWord word ∧ ofWord word = t

/-- Whatever shape a word has, its token is one that a scan may return. -/
theorem sound_ofWord {word : List Char} (h : IsWord word) :
    (ofWord word).Sound := by
  unfold Sound
  split
  · trivial
  · exact ⟨word, h, rfl⟩

/-- What the scanner has read of a word is a word. -/
def Mode.Sound : Mode → Prop
  | .word read => IsWord read.reverse
  | _ => True

/-- A word grows by characters that do not end it. -/
theorem IsWord.concat {read : List Char} {c : Char} (h : ∀ d ∈ read, IsPlain d)
    (hc : IsPlain c) :
    IsWord (c :: read).reverse := by
  refine ⟨by simp, fun d hd => ?_⟩
  rcases List.mem_cons.mp (List.mem_reverse.mp hd) with rfl | hd
  · exact hc
  · exact h d hd

/-- Putting a token in front of what the rest gives. -/
theorem sound_cons {t : Token} {rest : Except TokenError (List Token)}
    {tokens : List Token} (h : (t :: ·) <$> rest = .ok tokens) (ht : t.Sound)
    (hrest : ∀ {ts}, rest = .ok ts → ∀ t ∈ ts, t.Sound) :
    ∀ t ∈ tokens, t.Sound := by
  cases rest with
  | error e => cases h
  | ok ts =>
      cases h
      intro t' ht'
      rcases List.mem_cons.mp ht' with rfl | ht'
      · exact ht
      · exact hrest rfl t' ht'

/-- Every token of the rest of a line is sound when what has been read of the
current word is; this is what the scan of a line is an instance of. -/
theorem scanFrom_sound {mode : Mode} {line : List Char} {tokens : List Token}
    (h : scanFrom mode line = .ok tokens) (hm : mode.Sound) :
    ∀ t ∈ tokens, t.Sound := by
  have hword : ∀ {word}, IsWord word → ∀ t ∈ [ofWord word], t.Sound := by
    intro word hw t ht
    obtain rfl := List.mem_singleton.mp ht
    exact sound_ofWord hw
  induction line generalizing mode tokens with
  | nil =>
      cases mode with
      | between =>
          cases h
          -- an empty line has no tokens
          exact fun t ht => nomatch ht
      | word read =>
          cases h
          exact hword hm
      | string read => cases h
      | escape read => cases h
  | cons c rest ih =>
      cases mode with
      | between =>
          rw [scanFrom_between_cons] at h
          split at h
          · exact ih h trivial
          · next hblank =>
            split at h
            · cases h
              exact fun t ht => nomatch ht
            · next hsemi =>
              split at h
              · exact ih h trivial
              · next hquote =>
                refine ih h ?_
                -- a word begins with this character
                exact IsWord.concat (fun d hd => nomatch hd)
                  ⟨Bool.eq_false_iff.mpr hblank, hsemi, hquote⟩
      | word read =>
          rw [scanFrom_word_cons] at h
          split at h
          · -- a blank ends the word
            exact sound_cons h (sound_ofWord hm) fun hts => ih hts trivial
          · next hblank =>
            split at h
            · cases h
              exact hword hm
            · next hsemi =>
              split at h
              · exact sound_cons h (sound_ofWord hm) fun hts => ih hts trivial
              · next hquote =>
                refine ih h ?_
                exact IsWord.concat
                  (fun d hd => hm.plain d (List.mem_reverse.mpr hd))
                  ⟨Bool.eq_false_iff.mpr hblank, hsemi, hquote⟩
      | string read =>
          rw [scanFrom_string_cons] at h
          split at h
          · exact sound_cons h trivial fun hts => ih hts trivial
          · split at h
            · exact ih h trivial
            · exact ih h trivial
      | escape read =>
          rw [scanFrom_escape_cons] at h
          split at h
          · exact ih h trivial
          · cases h

/-- A name: a word that is not taken for anything else. -/
structure IsName (name : String) : Prop where
  word : IsWord name.toList
  ofWord_eq : ofWord name.toList = .ident name

/-- A numeral: a word that starts like a number. -/
structure IsNumeral (text : String) : Prop where
  word : IsWord text.toList
  ofWord_eq : ofWord text.toList = .number text

/-- Identifiers are the words themselves. -/
theorem text_of_ofWord {word : List Char} {text : String}
    (h : ofWord word = .ident text) :
    word = text.toList := by
  unfold ofWord at h
  cases hlabel : labelName? word with
  | some name => simp [hlabel] at h
  | none =>
      cases hdirective : directiveName? word with
      | some name => simp [hlabel, hdirective] at h
      | none =>
          simp only [hlabel, hdirective] at h
          by_cases hnumeric : looksNumeric word
          · rw [if_pos hnumeric] at h
            cases h
          · rw [if_neg hnumeric] at h
            rw [← ident.inj h, String.toList_ofList]

/-- The names among the tokens of a line can be written into a line again. -/
theorem isName_of_scan {line : List Char} {tokens : List Token} {name : String}
    (h : scan line = .ok tokens) (hname : .ident name ∈ tokens) :
    IsName name := by
  obtain ⟨word, hw, hword⟩ := scanFrom_sound h trivial _ hname
  obtain rfl := text_of_ofWord hword
  exact ⟨hw, hword⟩

end StackMachine.Assembly.Token
