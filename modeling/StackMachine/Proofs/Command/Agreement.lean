/-
A source file and its image. Every command that reads a program starts by
loading it, as a text or as an image by the extension of the file, and does
the rest with the program alone. So two files that load the same program are
treated alike (`Interchangeable.of_loads`), except where a report names the
file.

`source_and_image_agree` puts the pieces together. An assembled program that
is written as an image is loaded from it again, since images round-trip; and
writing the image leaves the source as it was, since the two files have names
with different extensions. A text that is no program gives the same report
whichever command finds out, and nothing is written.
-/
import StackMachine.Proofs.Command.Files
import StackMachine.Proofs.Image.RoundTrip

namespace StackMachine.Command

variable {d d' : Directory} {source image path text : String}
  {bytes : List UInt8} {p : Program} {fuel : Nat}

-- =============================================================== loading

/-- A file of a directory holds a program, as its extension says. -/
def Directory.Loads (d : Directory) (path : String) (p : Program) : Prop :=
  loadProgram path (d.read path) = .ok p

/-- The bytes of a text are read as it. -/
theorem textContents_utf8 (path text : String) :
    textContents path (.ok (Image.utf8 text)) = .ok text := by
  have hutf8 := Image.fromUTF8?_utf8 text
  unfold textContents contents
  simp only [bind, Except.bind]
  rw [hutf8]
  rfl

theorem loadProgram_text (h : Path.extension? path = some textExtension) :
    loadProgram path (.ok (Image.utf8 text)) = assembleText path text := by
  unfold loadProgram
  rw [if_pos h, textContents_utf8]
  rfl

theorem assembleText_of_ok (name : String)
    (h : Assembly.assemble text = .ok p) :
    assembleText name text = .ok p := by
  unfold assembleText
  rw [h]

/-- A text that is no program is reported under the name of its file. -/
theorem assembleText_of_error (name : String) {e : Assembly.SourceError}
    (h : Assembly.assemble text = .error e) :
    assembleText name text
      = .error (inputFailure (name ++ ": " ++ e.message)) := by
  unfold assembleText
  rw [h]

/-- A file that holds a text loads the program of the text. -/
theorem loads_text (hpath : Path.extension? path = some textExtension)
    (hread : d.read path = .ok (Image.utf8 text))
    (h : Assembly.assemble text = .ok p) :
    d.Loads path p := by
  unfold Directory.Loads
  rw [hread, loadProgram_text hpath, assembleText_of_ok path h]

/-- A file that holds an image loads the program of the image. -/
theorem loads_image (hpath : Path.extension? path ≠ some textExtension)
    (hread : d.read path = .ok bytes) (h : p.encode = .ok bytes) :
    d.Loads path p := by
  unfold Directory.Loads loadProgram
  rw [hread, if_neg hpath]
  simp only [contents, bind, Except.bind, Image.decode_of_encode h]
  rfl

-- ============================================================== commands

/-- What a request reports about a directory. -/
def Request.report (fuel : Nat) (d : Directory) (r : Request) : Report :=
  ((r.plan fuel).runIn d).1

/-- A command on a program reports what the program gives, and leaves the
directory as it is. -/
theorem filePlan_runIn {report : Program → Except Report Report}
    (h : d.Loads path p) :
    (filePlan path report).runIn d = (Report.of (report p), d) := by
  show (Report.of (loadProgram path (d.read path) >>= report), d) = _
  rw [h]
  rfl

/-- A run reports on the program that was loaded, whatever it was loaded
from. -/
theorem report_run (h : d.Loads path p) (options : Options) :
    Request.report fuel d (.run path options)
      = Report.of (execute fuel options p) :=
  congrArg Prod.fst (filePlan_runIn h)

/-- So does a check. -/
theorem report_check (h : d.Loads path p) :
    Request.report fuel d (.check path) = Report.of do
      verified p
      return {
        exit := 0
        output :=
        "OK: " ++ path ++ " (" ++ toString p.length ++ " instructions)\n" } :=
  congrArg Prod.fst (filePlan_runIn h)

theorem report_disassemble (h : d.Loads path p) :
    Request.report fuel d (.disassemble path)
      = { exit := 0, output := Assembly.listing p } :=
  congrArg Prod.fst (filePlan_runIn h)

/-- The commands on programs do the same with two files of a directory; only a
report that names its file tells them apart. -/
structure Interchangeable (fuel : Nat) (d : Directory)
    (one other : String) : Prop where
  run : ∀ options,
    Request.report fuel d (.run one options)
      = Request.report fuel d (.run other options)
  check_exit :
    (Request.report fuel d (.check one)).exit
      = (Request.report fuel d (.check other)).exit
  check_errors :
    (Request.report fuel d (.check one)).errors
      = (Request.report fuel d (.check other)).errors
  disassemble :
    Request.report fuel d (.disassemble one)
      = Request.report fuel d (.disassemble other)

/-- Files that load the same program are reported on alike. -/
theorem Interchangeable.of_loads {one other : String} (hone : d.Loads one p)
    (hother : d.Loads other p) : Interchangeable fuel d one other where
  run options := by rw [report_run hone, report_run hother]
  check_exit := by
    rw [report_check hone, report_check hother]
    cases verified p with
    | error report => rfl
    | ok _ => rfl
  check_errors := by
    rw [report_check hone, report_check hother]
    cases verified p with
    | error report => rfl
    | ok _ => rfl
  disassemble := by rw [report_disassemble hone, report_disassemble hother]

-- ============================================================ assembling

/-- A program that can be written is. -/
theorem assemblePlan_runIn (hread : d.read source = .ok (Image.utf8 text))
    (hassemble : Assembly.assemble text = .ok p)
    (hencode : p.encode = .ok bytes) (hwrite : d.write image bytes = .ok d') :
    ∃ message, (assemblePlan source (some image)).runIn d
      = ({ exit := 0, errors := message }, d') := by
  unfold assemblePlan
  simp only [Plan.runIn, hread, textContents_utf8,
    assembleText_of_ok source hassemble, hencode, bind, Except.bind, pure,
    Except.pure, Option.getD_some, hwrite]
  exact ⟨_, rfl⟩

/-- A text that is no program is reported, and nothing is written. -/
theorem assemblePlan_runIn_error {e : Assembly.SourceError}
    (hread : d.read source = .ok (Image.utf8 text))
    (hassemble : Assembly.assemble text = .error e) (output : Option String) :
    (assemblePlan source output).runIn d
      = (inputFailure (source ++ ": " ++ e.message), d) := by
  unfold assemblePlan
  simp only [Plan.runIn, hread, textContents_utf8,
    assembleText_of_error source hassemble, bind, Except.bind]

/-- A source that is not assembled is reported under its name, and no file
changes. -/
theorem filePlan_runIn_error {e : Assembly.SourceError}
    {report : Program → Except Report Report}
    (hsource : Path.extension? source = some textExtension)
    (hread : d.read source = .ok (Image.utf8 text))
    (hassemble : Assembly.assemble text = .error e) :
    (filePlan source report).runIn d
      = (inputFailure (source ++ ": " ++ e.message), d) := by
  show (Report.of (loadProgram source (d.read source) >>= report), d) = _
  rw [hread, loadProgram_text hsource, assembleText_of_error source hassemble]
  rfl

/-- A file with an extension has a name, which no file without that extension
has. -/
theorem exists_name_of_extension {one other extension : String}
    (hone : Path.extension? one = some extension)
    (hother : Path.extension? other ≠ some extension) :
    ∃ name,
      Path.fileName? one = some name ∧ Path.fileName? other ≠ some name := by
  cases hname : Path.fileName? one with
  | none =>
      unfold Path.extension? at hone
      rw [hname] at hone
      cases hone
  | some name =>
      refine ⟨name, rfl, fun hsame => hother ?_⟩
      unfold Path.extension? at hone ⊢
      rw [hname] at hone
      rw [hsame]
      exact hone

/-- Running a source and running its image agree: once the image is written to
a file of another extension, and not to the device that forgets, the commands
on programs do the same with both. A text that is no program is reported in
the same words by assembling and by running it, and nothing is written. -/
theorem source_and_image_agree
    (hsource : Path.extension? source = some textExtension)
    (hread : d.read source = .ok (Image.utf8 text)) (fuel : Nat) :
    (∀ p bytes image d', Assembly.assemble text = .ok p →
      p.encode = .ok bytes →
      Path.extension? image ≠ some textExtension →
      d.locate image ≠ .ok Directory.nullDevice →
      d.write image bytes = .ok d' →
        (∃ message, ((Request.assemble source (some image)).plan fuel).runIn d
          = ({ exit := 0, errors := message }, d')) ∧
        Interchangeable fuel d' source image) ∧
    ∀ e, Assembly.assemble text = .error e →
      (∀ output, ((Request.assemble source output).plan fuel).runIn d
        = ({ exit := 1
             errors := "error: " ++ (source ++ ": " ++ e.message) ++ "\n" },
           d)) ∧
      ∀ options, ((Request.run source options).plan fuel).runIn d
        = ({ exit := 1
             errors := "error: " ++ (source ++ ": " ++ e.message) ++ "\n" },
           d) := by
  constructor
  · intro p bytes image d' hassemble hencode himage hfile hwrite
    refine ⟨assemblePlan_runIn hread hassemble hencode hwrite, ?_⟩
    obtain ⟨name, hname, hne⟩ := exists_name_of_extension hsource himage
    -- the image is at another place, so the source is still there
    have hkept := Directory.read_of_write hwrite hname hne hread
    exact .of_loads (loads_text hsource hkept hassemble)
      (loads_image himage (Directory.read_written hwrite hfile) hencode)
  · intro e hassemble
    exact ⟨assemblePlan_runIn_error hread hassemble,
      fun options => filePlan_runIn_error hsource hread hassemble⟩

/-- Pushes a number and stops. -/
def pushing : Program where
  constants := #[.int 7]
  code := #[{ opcode := .pushConst }, { opcode := .halt }]
  functions := #[⟨"main", 0, 0, 0⟩]
  entry := 0
  entry_lt := Nat.zero_lt_one

def pushingText : String :=
  ".const int 7\n.func main 0 0\nPUSH_CONST 0\nHALT\n"

/-- A source file, and one with a label that is nowhere defined. -/
def sources : Directory where
  files := [
    (["a.tasm"], Image.utf8 pushingText),
    (["lost.tasm"], Image.utf8 ".func main 0 0\nJUMP nowhere\n")]

/-- The first source is run as its image is, and the second is refused. -/
theorem sources_agree :
    (∃ d' message,
      ((Request.assemble "a.tasm" (some "a.tbc")).plan 9).runIn sources
          = ({ exit := 0, errors := message }, d')
        ∧ Interchangeable 9 d' "a.tasm" "a.tbc") ∧
    ((Request.run "lost.tasm" {}).plan 9).runIn sources
      = ({ exit := 1
           errors := "error: lost.tasm: line 2: undefined label 'nowhere' "
            ++ "referenced by instruction 0\n" },
        sources) := by
  constructor
  · have hassemble : Assembly.assemble pushingText = .ok pushing := by
      decide +kernel
    obtain ⟨bytes, hencode⟩ : ∃ bytes, pushing.encode = .ok bytes := ⟨_, rfl⟩
    have hwrite : sources.write "a.tbc" bytes
        = .ok (sources.put ["a.tbc"] bytes) :=
      Directory.write_eq_ok.mpr
        ⟨["a.tbc"], by decide +kernel, by decide +kernel, by decide +kernel,
          by decide, rfl⟩
    have h :=
      (@source_and_image_agree sources "a.tasm" pushingText (by decide +kernel)
        (by decide +kernel) 9).1 pushing bytes "a.tbc" _ hassemble hencode
          (by decide +kernel)
        (by decide +kernel) hwrite
    obtain ⟨⟨message, hreport⟩, hsame⟩ := h
    exact ⟨_, message, hreport, hsame⟩
  · have hmessage :
        (Assembly.SourceError.build (some 2)
          (.undefinedLabel "nowhere" 0)).message
        = "line 2: undefined label 'nowhere' referenced by instruction 0" := by
          decide +kernel
    have h :=
      ((@source_and_image_agree sources "lost.tasm"
        ".func main 0 0\nJUMP nowhere\n"
          (by decide +kernel) (by decide +kernel) 9).2
            (.build (some 2) (.undefinedLabel "nowhere" 0))
          (by decide +kernel)).2 {}
    rw [hmessage] at h
    exact h

end StackMachine.Command
