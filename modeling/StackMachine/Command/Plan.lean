/-
What a request does, as a plan: a tree of reads and writes of files that ends
in a report. The plan itself touches nothing, so the same one is carried out
on the file system and on a directory held in memory.

A report is an exit code and what goes to the two output streams. The code is
0 when all went well, 1 for input that cannot be read, 2 for a program with
defects and 3 for a fault.
-/
import StackMachine.Assembly.Listing
import StackMachine.Assembly.Source
import StackMachine.Command.Arguments
import StackMachine.Command.Path
import StackMachine.Command.Sample
import StackMachine.Image.Reader
import StackMachine.Machine.Run
import StackMachine.Text.Utf8
import StackMachine.Verification.Verify

namespace StackMachine.Command

/-- How a command ends. -/
structure Report where
  exit : UInt32
  output : String := ""
  errors : String := ""
  deriving DecidableEq

/-- Files to read and write on the way to a report. -/
inductive Plan where
  | finish (report : Report)
  /-- Reads a file; a failure comes as its text. -/
  | read (path : String) (next : Except String (List UInt8) → Plan)
  /-- Writes a file; a failure comes as its text. -/
  | write (path : String) (bytes : List UInt8)
      (next : Except String Unit → Plan)

/-- Input that cannot be read. -/
def inputFailure (message : String) : Report :=
  { exit := 1, errors := "error: " ++ message ++ "\n" }

/-- Defects of a program, one a line. -/
def defectFailure (defects : List Verification.Defect) : Report :=
  { exit := 2,
    errors :=
      String.join (defects.map fun d => "error: " ++ d.message ++ "\n") }

/-- The program of a text that was found under a name. -/
def assembleText (name text : String) : Except Report Program :=
  match Assembly.assemble text with
  | .ok p => .ok p
  | .error e => .error (inputFailure (name ++ ": " ++ e.message))

/-- What was read from a file, or the failure to. -/
def contents (path : String)
    (bytes : Except String (List UInt8)) : Except Report (List UInt8) :=
  match bytes with
  | .ok bytes => .ok bytes
  | .error e => .error (inputFailure ("cannot read '" ++ path ++ "': " ++ e))

/-- What was read from a text file. -/
def textContents (path : String)
    (bytes : Except String (List UInt8)) : Except Report String := do
  let bytes ← contents path bytes
  match String.fromUTF8? ⟨bytes.toArray⟩ with
  | some text => return text
  | none =>
    .error (inputFailure
      ("cannot read '" ++ path ++ "': stream did not contain valid UTF-8"))

/-- Files with this extension hold assembly text, and all others images. -/
def textExtension : String := "tasm"

/-- The usual extension of images. -/
def imageExtension : String := "tbc"

/-- The program in a file, by the file's extension. -/
def loadProgram (path : String)
    (bytes : Except String (List UInt8)) : Except Report Program := do
  if Path.extension? path = some textExtension then
    let text ← textContents path bytes
    assembleText path text
  else
    let bytes ← contents path bytes
    match Program.decode bytes with
    | .ok p => return p
    | .error e =>
      .error (inputFailure
        ("invalid module image '" ++ path ++ "': " ++ e.message))

/-- Refuses a program with defects. -/
def verified (p : Program) : Except Report Unit :=
  match Verification.verify p with
  | [] => .ok ()
  | defects => .error (defectFailure defects)

/-- Runs a program. What it printed comes first, and then what it left on the
operand stack, one value a line; a fault is told instead of the values. -/
def runReport (fuel : Nat) (limits : Limits) (p : Program) : Report :=
  match p.run fuel limits with
  | .ok values m =>
    { exit := 0
      output := Text.ofUtf8 m.output
        ++ String.join (values.toList.map fun v => v.toText ++ "\n") }
  | .error (.fault f) m =>
    { exit := 3, output := Text.ofUtf8 m.output,
      errors := "runtime error: " ++ f.message ++ "\n" }
  | .error .outOfFuel m =>
    { exit := 3, output := Text.ofUtf8 m.output,
      errors := "runtime error: out of fuel\n" }

/-- Verifies a program, unless that is switched off, and runs it. -/
def execute (fuel : Nat) (options : Options)
    (p : Program) : Except Report Report := do
  if options.verifies then verified p
  return runReport fuel options.limits p

/-- A report whichever way it came about. -/
def Report.of : Except Report Report → Report
  | .ok report => report
  | .error report => report

-- =============================================================== commands

/-- Assembly text to an image, which is written unless something refuses
it. -/
def assemblePlan (input : String) (output : Option String) : Plan :=
  .read input fun bytes =>
    let image := do
      let text ← textContents input bytes
      let p ← assembleText input text
      match p.encode with
      | .ok image => return (p, image)
      | .error e => .error (inputFailure (input ++ ": " ++ e.message))
    match image with
    | .error report => .finish report
    | .ok (p, image) =>
      let path := output.getD (Path.withExtension input imageExtension)
      .write path image fun written =>
        .finish <|
          match written with
          | .error e => inputFailure ("cannot write '" ++ path ++ "': " ++ e)
          | .ok () =>
            { exit := 0
              errors := "assembled " ++ toString p.length ++ " instructions ("
                ++ toString image.length ++ " bytes) -> " ++ path ++ "\n" }

/-- A program in a file to a report. -/
def filePlan (input : String)
    (report : Program → Except Report Report) : Plan :=
  .read input fun bytes =>
    .finish <| Report.of do
      let p ← loadProgram input bytes
      report p

/-- A line of the list of samples: the name, filled up to ten characters, and
the intent. -/
def sampleLine (s : Sample) : String :=
  s.name ++ String.ofList (List.replicate (10 - s.name.length) ' ') ++ " "
    ++ s.intent ++ "\n"

/-- The list of samples, or a run of one of them. -/
def demoReport (fuel : Nat) (name : Option String)
    (options : Options) : Except Report Report :=
  match name with
  | none =>
    .ok { exit := 0, output := String.join (Sample.all.map sampleLine) }
  | some name =>
    match Sample.find? name with
    | none =>
      .error (inputFailure
        ("unknown sample '" ++ name ++ "' (try `tarn demo` for a list)"))
    | some sample => do
      let p ← assembleText sample.name sample.text
      execute fuel options p

/-- What a request does. -/
def Request.plan (fuel : Nat) : Request → Plan
  | .assemble input output => assemblePlan input output
  | .disassemble input =>
    filePlan input fun p => .ok { exit := 0, output := Assembly.listing p }
  | .check input =>
    filePlan input fun p => do
      verified p
      return { exit := 0,
               output :=
                 "OK: " ++ input ++ " (" ++ toString p.length
                   ++ " instructions)\n" }
  | .run input options => filePlan input (execute fuel options)
  | .demo name options => .finish (Report.of (demoReport fuel name options))

/-- How the command is used. -/
def usageText : String :=
  "Usage: tarn <assemble|disassemble|check|run|demo|help> [words]\n"

/-- The report of a command line that asks for nothing. Help and the version
are no failures. -/
def Refusal.report : Refusal → Report
  | .help => { exit := 0, output := usageText }
  | .version => { exit := 0, output := "tarn 0.1.0\n" }
  | .usage => { exit := 1, errors := usageText }

/-- What a command line does. -/
def plan (fuel : Nat) (args : List String) : Plan :=
  match Request.ofArguments args with
  | .ok request => request.plan fuel
  | .error refusal => .finish refusal.report

end StackMachine.Command
