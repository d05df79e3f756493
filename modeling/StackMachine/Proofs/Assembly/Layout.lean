/-
Layout does not matter. Blank and comment lines may be put in anywhere, and
blanks and comments before and behind any line; a text that was assembled is
assembled to the same program (`assemble_of_edits`).

A line that scans has been read to its end, to a word or to a comment, never
into a string: there the end of the line is an error. In all of these places
what is quiet adds no token (`Quiet.scanFrom_append`), so a line keeps its
statements. What is carried out is the statements of the lines one after the
other, whatever the numbers of these lines are (`assemble_eq_ok_iff`), and a
line without statements changes nothing.

The one place where joined lines are not read as they are is a carriage
return at the end of a line, which may become part of the ending or cease to
be. It is blank, so the line has the same statements with it and without it
(`ofLine_withoutReturn`).
-/
import StackMachine.Proofs.Assembly.ErrorLines

namespace StackMachine

namespace Text

/-- At most the carriage return at its end is taken from a line. -/
theorem withoutReturn_eq (line : List Char) :
    withoutReturn line = line ∨ line = withoutReturn line ++ ['\r'] := by
  unfold withoutReturn
  split
  · next hlast => exact .inr (List.dropLast_append_getLast? _ hlast).symm
  · exact .inl rfl

/-- Characters that do not end a line are a line, unless there are none. -/
theorem linesFrom_last {line : List Char} (h : '\n' ∉ line) (hne : line ≠ []) :
    linesFrom [] line = [line] := by
  have hread := linesFrom_read h [] []
  rw [List.append_nil, List.append_nil, linesFrom, if_neg (by simpa using hne),
    List.reverse_reverse] at hread
  exact hread

end Text

namespace Assembly

-- ============================================================= vocabulary

/-- Blanks, and behind them perhaps a comment. -/
inductive Quiet : List Char → Prop where
  | nil : Quiet []
  | comment (text : List Char) : Quiet (';' :: text)
  | blank {c : Char} {rest : List Char} (hc : Text.isBlank c = true)
      (hrest : Quiet rest) :
      Quiet (c :: rest)

instance decidableQuiet : (cs : List Char) → Decidable (Quiet cs)
  | [] => .isTrue .nil
  | c :: rest =>
    if hsemi : c = ';' then .isTrue (hsemi ▸ .comment rest)
    else if hblank : Text.isBlank c = true then
      match decidableQuiet rest with
      | .isTrue h => .isTrue (.blank hblank h)
      | .isFalse h => .isFalse fun
        | .comment _ => hsemi rfl
        | .blank _ hrest => h hrest
    else .isFalse fun
      | .comment _ => hsemi rfl
      | .blank hc _ => hblank hc

/-- One change of the layout of some lines. -/
inductive Edit : List String → List String → Prop where
  /-- A line that is blank or a comment is put in. -/
  | insert (line : String) (hquiet : Quiet line.toList)
      (hline : '\n' ∉ line.toList) :
      Edit [] [line]
  /-- Blanks are put before a line. -/
  | indent (blanks line : String)
      (hblank : ∀ c ∈ blanks.toList, Text.isBlank c = true)
      (hline : '\n' ∉ blanks.toList) : Edit [line] [blanks ++ line]
  /-- Blanks, or a comment, are put behind a line. -/
  | append (line tail : String) (hquiet : Quiet tail.toList)
      (hline : '\n' ∉ tail.toList) :
      Edit [line] [line ++ tail]
  /-- The change stands among other lines. -/
  | among (before after : List String) {ls ls' : List String}
      (h : Edit ls ls') :
      Edit (before ++ (ls ++ after)) (before ++ (ls' ++ after))

-- ================================================================ scanning

namespace Token

variable {mode : Mode} {c : Char} {line tail : List Char} {tokens : List Token}

/-- What the scanner does on a character, whatever follows it. -/
inductive Meets (mode : Mode) (c : Char) : Prop where
  /-- The scan ends here. -/
  | stop (r : Except TokenError (List Token))
      (h : ∀ rest, scanFrom mode (c :: rest) = r)
  /-- The scan goes on behind the tokens that the character completes. -/
  | go (completed : List Token) (mode' : Mode)
      (h : ∀ rest,
        scanFrom mode (c :: rest) = (completed ++ ·) <$> scanFrom mode' rest)

theorem Meets.within (mode' : Mode)
    (h : ∀ rest, scanFrom mode (c :: rest) = scanFrom mode' rest) :
    Meets mode c :=
  .go [] mode' fun rest => by rw [h, List.nil_append_fun, id_map]

/-- In every mode a character either ends the scan or leads to another mode,
with some tokens completed, whatever stands behind it. -/
theorem meets (mode : Mode) (c : Char) : Meets mode c := by
  cases mode with
  | between =>
      by_cases hblank : Text.isBlank c = true
      · exact .within .between fun rest => by
          rw [scanFrom_between_cons, if_pos hblank]
      by_cases hsemi : c = ';'
      · exact .stop (.ok []) fun rest => by
          rw [scanFrom_between_cons, if_neg hblank, if_pos hsemi]
      by_cases hquote : c = '"'
      · exact .within (.string []) fun rest => by
          rw [scanFrom_between_cons, if_neg hblank, if_neg hsemi,
            if_pos hquote]
      · exact .within (.word [c]) fun rest => by
          rw [scanFrom_between_cons, if_neg hblank, if_neg hsemi,
            if_neg hquote]
  | word read =>
      by_cases hblank : Text.isBlank c = true
      · exact .go [ofWord read.reverse] .between fun rest => by
          rw [scanFrom_word_cons, if_pos hblank]
          rfl
      by_cases hsemi : c = ';'
      · exact .stop (.ok [ofWord read.reverse]) fun rest => by
          rw [scanFrom_word_cons, if_neg hblank, if_pos hsemi]
      by_cases hquote : c = '"'
      · exact .go [ofWord read.reverse] (.string []) fun rest => by
          rw [scanFrom_word_cons, if_neg hblank, if_neg hsemi, if_pos hquote]
          rfl
      · exact .within (.word (c :: read)) fun rest => by
          rw [scanFrom_word_cons, if_neg hblank, if_neg hsemi, if_neg hquote]
  | string read =>
      by_cases hquote : c = '"'
      · exact .go [string (String.ofList read.reverse)] .between fun rest => by
          rw [scanFrom_string_cons, if_pos hquote]
          rfl
      by_cases hslash : c = '\\'
      · exact .within (.escape read) fun rest => by
          rw [scanFrom_string_cons, if_neg hquote, if_pos hslash]
      · exact .within (.string (c :: read)) fun rest => by
          rw [scanFrom_string_cons, if_neg hquote, if_neg hslash]
  | escape read =>
      cases hletter : Text.unescape? c with
      | some d =>
          exact .within (.string (d :: read)) fun rest => by
            rw [scanFrom_escape_cons, hletter]
      | none =>
          exact .stop (.error (.badEscape c)) fun rest => by
            rw [scanFrom_escape_cons, hletter]

/-- The end of a line may be exchanged if, wherever the scanner stands there,
the tokens it would return stay the same. -/
theorem scanFrom_transfer {tail tail' : List Char}
    (hend : ∀ mode tokens, scanFrom mode tail = .ok tokens →
      scanFrom mode tail' = .ok tokens)
    (h : scanFrom mode (line ++ tail) = .ok tokens) :
    scanFrom mode (line ++ tail') = .ok tokens := by
  induction line generalizing mode tokens with
  | nil => exact hend mode tokens h
  | cons c line ih =>
      rw [List.cons_append] at h ⊢
      cases meets mode c with
      | stop r hstop =>
          rw [hstop] at h ⊢
          exact h
      | go completed mode' hgo =>
          rw [hgo] at h ⊢
          obtain ⟨rest, hrest, rfl⟩ := exists_of_map_ok h
          rw [ih hrest]
          rfl

/-- Between two words, blanks and comments have no tokens. -/
theorem scanFrom_between_quiet (h : Quiet tail) :
    scanFrom .between tail = .ok [] := by
  induction h with
  | nil => rfl
  | comment text => rfl
  | blank hc _ ih => rw [scanFrom_between_cons, if_pos hc, ih]

/-- Blanks and comments behind a word end it and add nothing. -/
theorem scanFrom_word_quiet (h : Quiet tail) (read : List Char) :
    scanFrom (.word read) tail = .ok [ofWord read.reverse] := by
  cases h with
  | nil => rfl
  | comment text =>
      have hblank : Text.isBlank ';' = false := by decide
      rw [scanFrom_word_cons, hblank, if_neg Bool.false_ne_true, if_pos rfl]
  | blank hc hrest =>
      rw [scanFrom_word_cons, if_pos hc, scanFrom_between_quiet hrest]
      rfl

/-- Behind a line that scans, what is quiet adds no token. No line that scans
ends within a string, where a blank would be kept and a semicolon would start
no comment. -/
theorem scan_append_quiet (hquiet : Quiet tail) (h : scan line = .ok tokens) :
    scan (line ++ tail) = .ok tokens := by
  rw [← List.append_nil line] at h
  refine scanFrom_transfer (fun mode tokens h => ?_) h
  cases mode with
  | between => rw [scanFrom_between_quiet hquiet, ← h, scanFrom]
  | word read => rw [scanFrom_word_quiet hquiet, ← h, scanFrom_word_nil]
  | string read => cases h
  | escape read => cases h

/-- A blank at the end of a line that scans adds no token. -/
theorem scan_of_append_blank (hc : Text.isBlank c = true)
    (h : scan (line ++ [c]) = .ok tokens) :
    scan line = .ok tokens := by
  rw [← List.append_nil line]
  refine scanFrom_transfer (fun mode tokens h => ?_) h
  have hquiet : Quiet [c] := .blank hc .nil
  cases mode with
  | between => rw [← h, scanFrom_between_quiet hquiet, scanFrom]
  | word read => rw [← h, scanFrom_word_quiet hquiet, scanFrom_word_nil]
  | string read =>
      rw [scanFrom_string_cons] at h
      split at h
      · next hquote =>
        rw [hquote] at hc
        cases hc
      · split at h
        · cases h
        · cases h
  | escape read =>
      rw [scanFrom_escape_cons] at h
      split at h
      · cases h
      · cases h

/-- Blanks in front of a line are passed over. -/
theorem scan_blanks_append {blanks : List Char}
    (h : ∀ c ∈ blanks, Text.isBlank c = true) (line : List Char) :
    scan (blanks ++ line) = scan line := by
  induction blanks with
  | nil => rfl
  | cons c blanks ih =>
      rw [List.cons_append, scan_blank_cons (h c List.mem_cons_self),
        ih fun d hd => h d (List.mem_cons_of_mem c hd)]

end Token

-- =================================================================== lines

namespace Statement

variable {line line' : List Char} {ss : List Statement}

/-- A line that scans to the same tokens has the same statements. -/
theorem ofLine_of_scan
    (hscan : ∀ tokens, Token.scan line = .ok tokens →
      Token.scan line' = .ok tokens)
    (h : ofLine line = .ok ss) : ofLine line' = .ok ss := by
  unfold ofLine at h ⊢
  cases htokens : Token.scan line with
  | error e =>
      rw [htokens] at h
      cases h
  | ok tokens =>
      rw [htokens] at h
      rw [hscan tokens htokens]
      exact h

/-- A carriage return at the end of a line is blank, whether or not it is part
of the ending. -/
theorem ofLine_withoutReturn :
    ofLine (Text.withoutReturn line) = .ok ss ↔ ofLine line = .ok ss := by
  have hreturn : Text.isBlank '\r' = true := by decide
  rcases Text.withoutReturn_eq line with heq | heq
  · rw [heq]
  · constructor
    · intro h
      rw [heq]
      exact ofLine_of_scan
        (fun _ => Token.scan_append_quiet (.blank hreturn .nil)) h
    · intro h
      rw [heq] at h
      exact ofLine_of_scan (fun _ => Token.scan_of_append_blank hreturn) h

theorem ofLine_quiet (h : Quiet line) : ofLine line = .ok [] := by
  have hscan : Token.scan line = .ok [] := Token.scanFrom_between_quiet h
  rw [ofLine, hscan]
  rfl

end Statement

-- ======================================================== lines carried out

section Carried

variable {d d' d'' : Draft} {line : List Char}
  {lines lines' before after : List (List Char)}

/-- No lines change nothing. -/
theorem carried_nil : Carried d [] d' ↔ d = d' := by
  constructor
  · rintro ⟨⟩
    rfl
  · rintro rfl
    exact .nil

/-- Lines are carried out one after the other. -/
theorem carried_cons :
    Carried d (line :: lines) d'' ↔ ∃ ss d', Statement.ofLine line = .ok ss
    ∧ ss.foldlM Draft.apply d = .ok d' ∧ Carried d' lines d'' := by
  constructor
  · rintro (_ | ⟨hline, hss, hlines⟩)
    exact ⟨_, _, hline, hss, hlines⟩
  · rintro ⟨ss, d', hline, hss, hlines⟩
    exact .cons hline hss hlines

/-- Lines make one draft of a draft. -/
theorem Carried.unique (h : Carried d lines d') (h' : Carried d lines d'') :
    d' = d'' := by
  induction h with
  | nil => exact carried_nil.mp h'
  | cons hline hss _ ih =>
      obtain ⟨ss', d₁, hline', hss', hlines'⟩ := carried_cons.mp h'
      rw [hline] at hline'
      cases hline'
      rw [hss] at hss'
      cases hss'
      exact ih hlines'

/-- Lines behind others are carried out on the draft that those leave. -/
theorem carried_append : Carried d (before ++ after) d''
    ↔ ∃ d', Carried d before d' ∧ Carried d' after d'' := by
  induction before generalizing d with
  | nil => simp [carried_nil]
  | cons line before ih =>
      simp only [List.cons_append, carried_cons, ih]
      grind

/-- Lines in the midst of others may be exchanged for lines that make the same
of every draft. -/
theorem Carried.exchange
    (hlines : ∀ d d', Carried d lines d' → Carried d lines' d')
    (h : Carried d (before ++ (lines ++ after)) d') :
    Carried d (before ++ (lines' ++ after)) d' := by
  obtain ⟨d₁, hbefore, h⟩ := carried_append.mp h
  obtain ⟨d₂, hmid, hafter⟩ := carried_append.mp h
  exact carried_append.mpr
    ⟨d₁, hbefore, carried_append.mpr ⟨d₂, hlines d₁ d₂ hmid, hafter⟩⟩

/-- A line without statements changes nothing. -/
theorem carried_cons_of_ofLine_eq_nil
    (hline : Statement.ofLine line = .ok []) :
    Carried d (line :: lines) d' ↔ Carried d lines d' := by
  rw [carried_cons]
  constructor
  · rintro ⟨ss, d₁, hss, hfold, hlines⟩
    rw [hline] at hss
    cases hss
    cases hfold
    exact hlines
  · exact fun h => ⟨[], d, hline, rfl, h⟩

/-- A line may be exchanged for one with its statements. -/
theorem Carried.exchange_line {line' : List Char}
    (hline : ∀ ss, Statement.ofLine line = .ok ss →
      Statement.ofLine line' = .ok ss)
    (h : Carried d [line] d') : Carried d [line'] d' := by
  obtain ⟨ss, d₁, hss, hfold, hrest⟩ := carried_cons.mp h
  exact .cons (hline ss hss) hfold hrest

/-- The lines of a joined text are carried out like the lines that were
joined. -/
theorem carried_intercalate (h : ∀ l ∈ lines, '\n' ∉ l) :
    Carried d (Text.linesFrom [] (['\n'].intercalate lines)) d'
      ↔ Carried d lines d' := by
  induction lines generalizing d with
  | nil => rfl
  | cons line lines ih =>
      have hline : '\n' ∉ line := h line List.mem_cons_self
      have hlines : ∀ l ∈ lines, '\n' ∉ l :=
        fun l hl => h l (List.mem_cons_of_mem line hl)
      cases lines with
      | nil =>
          rw [List.intercalate_singleton]
          cases line with
          | nil =>
              -- an empty line at the end is no line of the text
              exact (carried_cons_of_ofLine_eq_nil
                (Statement.ofLine_quiet .nil)).symm
          | cons c line =>
              rw [Text.linesFrom_last hline (List.cons_ne_nil c line)]
      | cons next lines =>
          rw [List.intercalate_cons_cons, List.append_assoc,
            List.singleton_append, Text.linesFrom_append hline, carried_cons,
            carried_cons]
          simp only [Statement.ofLine_withoutReturn, ih hlines]

end Carried

-- ================================================================== layout

/-- A text is assembled to what is built of the draft that its lines make. The
numbers of the lines play no part in it. -/
theorem assemble_eq_ok_iff {text : String} {p : Program} :
    assemble text = .ok p
      ↔ ∃ d, Carried {} (Text.lines text) d ∧ d.build = .ok p := by
  constructor
  · intro h
    obtain ⟨r, hr, hfinish⟩ := exists_of_bind_ok h
    refine ⟨r.draft, Reading.carried_of_readLines hr, ?_⟩
    rw [Reading.finish] at hfinish
    split at hfinish
    · next hbuild =>
      rw [hbuild, Except.ok.inj hfinish]
    · cases hfinish
  · rintro ⟨d, hd, hbuild⟩
    obtain ⟨r, hr⟩ :=
      Reading.readLines_of_carried hd 1 (show Reading.draft {} = {} from rfl)
    have hdraft := (Reading.carried_of_readLines hr).unique hd
    rw [assemble, hr]
    show r.finish = _
    rw [Reading.finish, hdraft, hbuild]

variable {ls ls' : List String}

/-- What was a list of lines is one in another layout. -/
theorem Edit.newline_not_mem (h : Edit ls ls')
    (hls : ∀ l ∈ ls, '\n' ∉ l.toList) :
    ∀ l ∈ ls', '\n' ∉ l.toList := by
  induction h with
  | insert line hquiet hline => simpa using hline
  | indent blanks line hblank hline => simpa [hline] using hls
  | append line tail hquiet hline => simpa [hline] using hls
  | among before after h ih =>
      intro l hl
      simp only [List.mem_append] at hls hl
      grind

/-- What lines make of a draft, they make of it in another layout. -/
theorem Edit.carried (h : Edit ls ls') {d d' : Draft}
    (hd : Carried d (ls.map String.toList) d') :
    Carried d (ls'.map String.toList) d' := by
  induction h generalizing d d' with
  | insert line hquiet hline =>
      have hnone := Statement.ofLine_quiet hquiet
      exact (carried_cons_of_ofLine_eq_nil hnone).mpr hd
  | indent blanks line hblank hline =>
      refine hd.exchange_line
        fun ss => Statement.ofLine_of_scan fun tokens htokens => ?_
      rw [String.toList_append, Token.scan_blanks_append hblank, htokens]
  | append line tail hquiet hline =>
      refine hd.exchange_line
        fun ss => Statement.ofLine_of_scan fun tokens htokens => ?_
      rw [String.toList_append, Token.scan_append_quiet hquiet htokens]
  | among before after h ih =>
      rw [List.map_append, List.map_append] at hd ⊢
      exact hd.exchange fun d d' => ih

/-- The text of some lines is assembled to what is built of the draft that
these make. -/
theorem assemble_intercalate_eq_ok_iff {p : Program}
    (hls : ∀ l ∈ ls, '\n' ∉ l.toList) :
    assemble ("\n".intercalate ls) = .ok p
      ↔ ∃ d, Carried {} (ls.map String.toList) d ∧ d.build = .ok p := by
  have hlines : ∀ l ∈ ls.map String.toList, '\n' ∉ l := by simpa using hls
  have hjoined : Text.lines ("\n".intercalate ls)
      = Text.linesFrom [] (['\n'].intercalate (ls.map String.toList)) := by
    rw [Text.lines, String.toList_intercalate]
    rfl
  simp only [assemble_eq_ok_iff, hjoined, carried_intercalate hlines]

/-- Lines whose text is assembled are assembled to the same program after any
number of changes of their layout. Lines are joined by line feeds; a text that
ends in one has an empty last line. -/
theorem assemble_of_edits {p : Program} (hls : ∀ l ∈ ls, '\n' ∉ l.toList)
    (hedits : Relation.ReflTransGen Edit ls ls')
    (h : assemble ("\n".intercalate ls) = .ok p) :
    assemble ("\n".intercalate ls') = .ok p := by
  obtain ⟨d, hd, hbuild⟩ := (assemble_intercalate_eq_ok_iff hls).mp h
  have hkept : (∀ l ∈ ls', '\n' ∉ l.toList)
      ∧ Carried {} (ls'.map String.toList) d := by
    induction hedits with
    | refl => exact ⟨hls, hd⟩
    | tail _ hedit ih => exact ⟨hedit.newline_not_mem ih.1, hedit.carried ih.2⟩
  exact (assemble_intercalate_eq_ok_iff hkept.1).mpr ⟨d, hkept.2, hbuild⟩

/-- Lines without layout, with a semicolon in a string and a label in
front of its jump. -/
def bare : List String :=
  [".const string \"a;b\"", ".func main 0 0", "top: JUMP top"]

/-- The same lines with a comment that opens a string, a comment line that
reads like an instruction, blanks that are no spaces, and a carriage
return at the end. -/
def dressed : List String :=
  [".const string \"a;b\"; \"", "; HALT", "\t\u00a0.func main 0 0",
    "top: JUMP top\r"]

/-- The program of these lines. -/
def circling : Program where
  constants := #[.string "a;b"]
  code := #[{ opcode := .jump }]
  functions := #[⟨"main", 0, 0, 0⟩]
  entry := 0
  entry_lt := Nat.zero_lt_one

/-- The changes take the one text to the other, and both are assembled to the
same program. -/
theorem dressed_assembled :
    (∀ l ∈ bare, '\n' ∉ l.toList) ∧ Relation.ReflTransGen Edit bare dressed
      ∧ assemble ("\n".intercalate bare) = .ok circling
      ∧ assemble ("\n".intercalate dressed) = .ok circling := by
  have hbare : ∀ l ∈ bare, '\n' ∉ l.toList := by decide
  have hedits : Relation.ReflTransGen Edit bare dressed :=
    .head (.among []
      _ (.append ".const string \"a;b\"" "; \"" (by decide) (by decide))) <|
    .head (.among [_] _ (.insert "; HALT" (by decide) (by decide))) <|
    .head (.among [_, _] _
      (.indent "\t\u00a0" ".func main 0 0" (by simp [Text.isBlank])
        (by decide))) <|
    .single
      (.among [_, _, _] []
        (.append "top: JUMP top" "\r" (by decide) (by decide)))
  have hassemble : assemble ("\n".intercalate bare) = .ok circling := by
    have htext : "\n".intercalate bare
        = ".const string \"a;b\"\n.func main 0 0\ntop: JUMP top" := by decide
    rw [htext]
    decide +kernel
  exact ⟨hbare, hedits, hassemble, assemble_of_edits hbare hedits hassemble⟩

end Assembly

end StackMachine
