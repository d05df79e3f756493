/-
Blank characters and lines. Blank is the white space of the character
database, which has 25 characters; a line ends at a line feed, and a carriage
return right before it belongs to the ending.
-/

namespace StackMachine.Text

/-- White space. -/
def isBlank (c : Char) : Bool :=
  let n := c.toNat
  (0x09 ≤ n && n ≤ 0x0D) || n == 0x20 || n == 0x85 || n == 0xA0 || n == 0x1680
    || (0x2000 ≤ n && n ≤ 0x200A) || n == 0x2028 || n == 0x2029 || n == 0x202F
    || n == 0x205F
    || n == 0x3000

/-- A line without the carriage return of its ending. -/
def withoutReturn (line : List Char) : List Char :=
  match line.getLast? with
  | some '\r' => line.dropLast
  | _ => line

/-- The lines of a text, where `read` holds the characters of the
current line, last one first. A text that ends in a line feed has no
empty line behind it. -/
def linesFrom (read : List Char) : List Char → List (List Char)
  | [] => if read.isEmpty then [] else [read.reverse]
  | '\n' :: rest => withoutReturn read.reverse :: linesFrom [] rest
  | c :: rest => linesFrom (c :: read) rest

/-- The lines of a text. -/
def lines (text : String) : List (List Char) := linesFrom [] text.toList

end StackMachine.Text
