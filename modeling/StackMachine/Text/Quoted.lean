/-
Quoted text. A string literal stands between double quotes, and six
characters are written with a backslash: the quote and the backslash itself,
line feed, carriage return, tab and NUL. `escape` writes literals for
assembly text, where every other character stands for itself; `quoted` writes
them for messages, where characters without a mark of their own are spelled
by number.
-/
import StackMachine.Text.Hidden
import StackMachine.Text.Letters

namespace StackMachine.Text

/-- The letter behind the backslash, for a character that needs one. -/
def escapeLetter? : Char → Option Char
  | '"' => some '"'
  | '\\' => some '\\'
  | '\n' => some 'n'
  | '\t' => some 't'
  | '\r' => some 'r'
  | '\x00' => some '0'
  | _ => none

/-- The character that a letter behind the backslash stands for. -/
def unescape? : Char → Option Char
  | '"' => some '"'
  | '\\' => some '\\'
  | 'n' => some '\n'
  | 't' => some '\t'
  | 'r' => some '\r'
  | '0' => some '\x00'
  | _ => none

/-- One character of a literal. -/
def escapeChar (c : Char) : List Char :=
  match escapeLetter? c with
  | some letter => ['\\', letter]
  | none => [c]

/-- A string literal of assembly text. -/
def escape (s : String) : String :=
  String.ofList ('"' :: (s.toList.flatMap escapeChar ++ ['"']))

/-- One character of a literal in a message. -/
def showChar (c : Char) : List Char :=
  match escapeLetter? c with
  | some letter => ['\\', letter]
  | none =>
    if isHidden c then ("\\u\x7b" ++ hex c.toNat ++ "\x7d").toList else [c]

/-- A string literal in a message. -/
def quoted (s : String) : String :=
  String.ofList ('"' :: (s.toList.flatMap showChar ++ ['"']))

/-- Reading a letter undoes writing it. -/
theorem unescape?_of_escapeLetter? {c letter : Char}
    (h : escapeLetter? c = some letter) :
    unescape? letter = some c := by
  unfold escapeLetter? at h
  split at h <;> cases h <;> rfl

end StackMachine.Text
