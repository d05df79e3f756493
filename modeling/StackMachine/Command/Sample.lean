/-
The built-in samples: small programs in assembly text that show one thing
each. They are listed in the order below and found by name, whatever its
case.
-/
import StackMachine.Text.Letters

namespace StackMachine.Command

/-- A built-in program. -/
structure Sample where
  name : String
  /-- What it shows. -/
  intent : String
  /-- Its assembly text, line by line. -/
  lines : List String

/-- The assembly text of a sample. -/
def Sample.text (s : Sample) : String := String.join (s.lines.map (· ++ "\n"))

namespace Sample

/-- Printing. -/
def hello : Sample where
  name := "hello"
  intent := "Print a greeting through the print syscall"
  lines := [
    "; Print a greeting through the print syscall.",
    ".const string \"Hello, Tarn!\"",
    "",
    ".func main 0 0",
    "    PUSH_CONST 0",
    "    SYSCALL 1",
    "    HALT"]

/-- A loop with two locals. -/
def sum : Sample where
  name := "sum"
  intent := "Sum the integers 1 through 10 with a counting loop"
  lines := [
    "; Sum the integers 1 through 10 with a counting loop.",
    ".const int 0",
    ".const int 1",
    ".const int 11",
    "",
    ".func main 0 2",
    "    PUSH_CONST 0",
    "    STORE_LOCAL 0       ; sum = 0",
    "    PUSH_CONST 1",
    "    STORE_LOCAL 1       ; i = 1",
    "loop:",
    "    LOAD_LOCAL 1",
    "    PUSH_CONST 2",
    "    CMP_LT",
    "    JUMP_IF_FALSE done  ; while i < 11",
    "    LOAD_LOCAL 0",
    "    LOAD_LOCAL 1",
    "    ADD",
    "    STORE_LOCAL 0       ; sum = sum + i",
    "    LOAD_LOCAL 1",
    "    PUSH_CONST 1",
    "    ADD",
    "    STORE_LOCAL 1       ; i = i + 1",
    "    JUMP loop",
    "done:",
    "    LOAD_LOCAL 0",
    "    HALT"]

/-- Recursion. -/
def factorial : Sample where
  name := "factorial"
  intent := "Recursive factorial of 5"
  lines := [
    "; Recursive factorial of 5.",
    ".const int 5",
    ".const int 2",
    ".const int 1",
    ".entry main",
    "",
    ".func fact 1 1",
    "    LOAD_LOCAL 0",
    "    PUSH_CONST 1",
    "    CMP_LT",
    "    JUMP_IF_FALSE recurse   ; n < 2",
    "    PUSH_CONST 2",
    "    RETURN",
    "recurse:",
    "    LOAD_LOCAL 0",
    "    LOAD_LOCAL 0",
    "    PUSH_CONST 2",
    "    SUB",
    "    CALL fact",
    "    MUL                     ; n * fact(n - 1)",
    "    RETURN",
    "",
    ".func main 0 0",
    "    PUSH_CONST 0",
    "    CALL fact",
    "    HALT"]

/-- A call with one argument. -/
def square : Sample where
  name := "square"
  intent := "Square a number in a helper function and print it"
  lines := [
    "; Square a number in a helper function and print it.",
    ".const int 7",
    "",
    ".func main 0 0",
    "    PUSH_CONST 0",
    "    CALL square",
    "    SYSCALL 1",
    "    HALT",
    "",
    ".func square 1 1",
    "    LOAD_LOCAL 0",
    "    LOAD_LOCAL 0",
    "    MUL",
    "    RETURN"]

/-- A call with two arguments. -/
def add : Sample where
  name := "add"
  intent := "Add two arguments in a called function"
  lines := [
    "; Add two arguments in a called function.",
    ".const int 2",
    ".const int 3",
    "",
    ".func main 0 0",
    "    PUSH_CONST 0",
    "    PUSH_CONST 1",
    "    CALL add",
    "    HALT",
    "",
    ".func add 2 2",
    "    LOAD_LOCAL 0",
    "    LOAD_LOCAL 1",
    "    ADD",
    "    RETURN"]

/-- All samples, in the order in which they are listed. -/
def all : List Sample := [hello, sum, factorial, square, add]

/-- The sample with this name. -/
def find? (name : String) : Option Sample :=
  all.find? fun s => Text.sameLetters s.name name

end Sample

end StackMachine.Command
