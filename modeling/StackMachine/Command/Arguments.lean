/-
The command line. The first word chooses a command; its own words are
options, which start with a hyphen, and positional words in any order. An
option's value is the rest of its word or the next word, every option is
given at most once, and two hyphens alone make all that follows positional.
Words are judged from left to right, so the first request for help and the
first mistake decide between them.
-/
import StackMachine.Machine.State

namespace StackMachine.Command

-- ============================================================== requests

/-- How a program is run. -/
structure Options where
  /-- Whether it is verified first. -/
  verifies : Bool := true
  limits : Limits := {}

/-- What the command line asks for. -/
inductive Request where
  /-- Assemble a text into an image. -/
  | assemble (input : String) (output : Option String)
  /-- Show a program as assembly text. -/
  | disassemble (input : String)
  /-- Verify a program. -/
  | check (input : String)
  /-- Run a program. -/
  | run (input : String) (options : Options)
  /-- Run a built-in sample, or list them all. -/
  | demo (name : Option String) (options : Options)

/-- Why the command line asks for nothing. -/
inductive Refusal where
  | help
  | version
  /-- The words do not make a request. -/
  | usage
  deriving DecidableEq

-- =============================================================== options

/-- What follows an option. -/
inductive Argument where
  | none | path | number
  deriving DecidableEq

/-- An option of a command. -/
structure Flag where
  name : String
  letter : Option Char := Option.none
  argument : Argument

/-- The words that a command takes. -/
structure Grammar where
  flags : List Flag
  /-- Whether its one positional word may be empty, which a path may not. -/
  acceptsEmpty : Bool

/-- What was found on the command line. -/
structure Words where
  positional : Option String := none
  options : List (String × String) := []

/-- The size that a word spells. -/
def number? (text : String) : Option Nat :=
  let digits :=
    match text.toList with
    | '+' :: digits => digits
    | digits => digits
  if digits.isEmpty || !digits.all Char.isDigit then none
  else
    let n := Text.decimalNumber digits
    if n < UInt64.size then some n else none

namespace Words

/-- Adds a positional word; there is one at most. -/
def addPositional (g : Grammar) (w : Words)
    (word : String) : Except Refusal Words :=
  if w.positional.isSome || (word = "" && !g.acceptsEmpty) then .error .usage
  else .ok { w with positional := some word }

/-- Adds an option, once, with a value of the right form. -/
def addOption (w : Words) (flag : Flag)
    (value : String) : Except Refusal Words :=
  let wellFormed :=
    match flag.argument with
    | .none => true
    | .path => value ≠ ""
    | .number => (number? value).isSome
  if wellFormed && (w.options.lookup flag.name).isNone then
    .ok { w with options := (flag.name, value) :: w.options }
  else .error .usage

/-- What a word that starts with a hyphen leaves to be done. -/
inductive Pending where
  /-- Nothing: the word stood for itself. -/
  | settled (words : Words)
  /-- The next word is the value of an option. -/
  | awaits (flag : Flag)

/-- An option by its name, behind two hyphens; a value may follow an equals
sign. -/
def long (g : Grammar) (w : Words)
    (body : List Char) : Except Refusal Pending :=
  let (name, value) := body.span (· ≠ '=')
  let name := String.ofList name
  if name = "help" then .error (if value.isEmpty then .help else .usage)
  else
    match g.flags.find? (·.name == name) with
    | none => .error .usage
    | some flag =>
      match value, flag.argument with
      | [], .none => .settled <$> w.addOption flag ""
      | [], _ => .ok (.awaits flag)
      | _ :: _, .none => .error .usage
      | _ :: value, _ => .settled <$> w.addOption flag (String.ofList value)

/-- Options by their letters, behind one hyphen; the first that takes a value
takes the rest of the word. -/
def short (g : Grammar) (w : Words) : List Char → Except Refusal Pending
  | [] => .ok (.settled w)
  | 'h' :: _ => .error .help
  | letter :: rest =>
    match g.flags.find? (·.letter == some letter) with
    | none => .error .usage
    | some flag =>
      match flag.argument, rest with
      | .none, rest => do
        let w ← w.addOption flag ""
        short g w rest
      | _, [] => .ok (.awaits flag)
      | _, '=' :: value => .settled <$> w.addOption flag (String.ofList value)
      | _, value => .settled <$> w.addOption flag (String.ofList value)

/-- Whether a word is an option and no value: a hyphen alone is a word
like any other. -/
def isOption (word : String) : Bool :=
  match word.toList with
  | '-' :: _ :: _ => true
  | _ => false

/-- Reads the words of a command. -/
def read (g : Grammar) (w : Words) : List String → Except Refusal Words
  | [] => .ok w
  | "--" :: rest => rest.foldlM (addPositional g) w
  | word :: rest => do
    if !isOption word then
      let w ← w.addPositional g word
      read g w rest
    else
      let pending ←
        match word.toList with
        | '-' :: '-' :: body => long g w body
        | body => short g w (body.drop 1)
      match pending, rest with
      | .settled w, rest => read g w rest
      | .awaits _, [] => .error .usage
      | .awaits flag, value :: rest =>
        if isOption value then .error .usage
        else
          let w ← w.addOption flag value
          read g w rest

/-- The value of a number option. -/
def number (w : Words) (name : String) (default : Nat) : Nat :=
  ((w.options.lookup name).bind number?).getD default

/-- How a program is run, as the words ask. -/
def runOptions (w : Words) : Options :=
  let usual : Limits := {}
  { verifies := (w.options.lookup "no-verify").isNone
    limits := {
      operands := w.number "max-stack" usual.operands
      calls := w.number "max-call-depth" usual.calls } }

/-- The positional word of a command that needs one. -/
def required (w : Words) : Except Refusal String :=
  match w.positional with
  | some word => .ok word
  | none => .error .usage

end Words

-- ============================================================== commands

/-- The options of commands that run programs. -/
def runFlags : List Flag :=
  [{ name := "no-verify", argument := .none },
    { name := "max-stack", argument := .number },
    { name := "max-call-depth", argument := .number }]

/-- The names of the commands. -/
def commandNames : List String :=
  ["assemble", "disassemble", "check", "run", "demo", "help"]

/-- The request of a command and its words. -/
def Request.ofCommand (command : String)
    (args : List String) : Except Refusal Request :=
  match command with
  | "assemble" => do
    let flags := [{ name := "output", letter := some 'o', argument := .path }]
    let w ← Words.read { flags, acceptsEmpty := false } {} args
    let input ← w.required
    return .assemble input (w.options.lookup "output")
  | "disassemble" => do
    let w ← Words.read { flags := [], acceptsEmpty := false } {} args
    return .disassemble (← w.required)
  | "check" => do
    let w ← Words.read { flags := [], acceptsEmpty := false } {} args
    return .check (← w.required)
  | "run" => do
    let w ← Words.read { flags := runFlags, acceptsEmpty := false } {} args
    return .run (← w.required) w.runOptions
  | "demo" => do
    let w ← Words.read { flags := runFlags, acceptsEmpty := true } {} args
    return .demo w.positional w.runOptions
  | "help" =>
    match args with
    | [] => .error .help
    | [name] => .error (if commandNames.contains name then .help else .usage)
    | _ => .error .usage
  | _ => .error .usage

/-- The request of a command line. -/
def Request.ofArguments : List String → Except Refusal Request
  | [] => .error .usage
  | "--help" :: _ => .error .help
  | "--version" :: _ => .error .version
  | word :: rest =>
    match word.toList with
    | '-' :: 'h' :: _ => .error .help
    | '-' :: 'V' :: _ => .error .version
    | _ => Request.ofCommand word rest

end StackMachine.Command
