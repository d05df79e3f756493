/-
Tokens of assembly text, line by line. Blank characters separate words, a
semicolon outside a string starts a comment that reaches to the end of the
line, and a string starts at a quote wherever it stands. A word is told apart
by its shape alone: a colon at its end makes a label, a point and a letter at
its start a directive, a digit or a sign before one a number, and anything
else is a name.

The scanner is one pass over the characters. What it has read of the current
word or string is its whole state, so each character is looked at once.
-/
import StackMachine.Text.Blank
import StackMachine.Text.Quoted

namespace StackMachine.Assembly

/-- A token. -/
inductive Token where
  /-- A mnemonic, a function name, a label reference or a keyword. -/
  | ident (text : String)
  /-- A number as written; what it must be is for its place to say. -/
  | number (text : String)
  /-- A string literal, with its escapes resolved. -/
  | string (text : String)
  /-- A directive without its point, in small letters. -/
  | directive (name : String)
  /-- A label definition without its colon. -/
  | label (name : String)
  deriving DecidableEq

/-- The token as messages quote it. -/
def Token.text : Token → String
  | ident text => text
  | number text => text
  | string text => Text.quoted text
  | directive name => "." ++ name
  | label name => name ++ ":"

/-- Why a line is no sequence of tokens. -/
inductive TokenError where
  /-- A string has no closing quote. -/
  | unterminatedString
  /-- A backslash stands before a character that needs none. -/
  | badEscape (c : Char)
  deriving DecidableEq

namespace Token

-- ================================================================ words

/-- A word that starts like a number: an optional sign, then a digit or a
point and a digit. -/
def looksNumeric (word : List Char) : Bool :=
  let body :=
    match word with
    | '-' :: rest => rest
    | '+' :: rest => rest
    | word => word
  match body with
  | '.' :: c :: _ => c.isDigit
  | c :: _ => c.isDigit
  | [] => false

/-- The name in a label definition: all but a colon at the end, when
anything is left. -/
def labelName? (word : List Char) : Option (List Char) :=
  match word.getLast? with
  | some ':' => if word.dropLast.isEmpty then none else some word.dropLast
  | _ => none

/-- The name in a directive: what follows the point, when it starts with a
letter. -/
def directiveName? : List Char → Option (List Char)
  | '.' :: c :: rest => if c.isAlpha then some (c :: rest) else none
  | _ => none

/-- The token that a word is. -/
def ofWord (word : List Char) : Token :=
  match labelName? word with
  | some name => label (String.ofList name)
  | none =>
    match directiveName? word with
    | some name => directive (Text.small (String.ofList name))
    | none =>
      if looksNumeric word then number (String.ofList word)
      else ident (String.ofList word)

-- =========================================================== scanning

/-- Where the scanner stands; what it has read of a word or string is held
last character first. -/
inductive Mode where
  | between
  | word (read : List Char)
  | string (read : List Char)
  /-- Inside a string, right behind a backslash. -/
  | escape (read : List Char)

/-- The tokens of the rest of a line. -/
def scanFrom : Mode → List Char → Except TokenError (List Token)
  | .between, [] => .ok []
  | .between, c :: rest =>
    if Text.isBlank c then scanFrom .between rest
    else if c = ';' then .ok []
    else if c = '"' then scanFrom (.string []) rest
    else scanFrom (.word [c]) rest
  | .word read, [] => .ok [ofWord read.reverse]
  | .word read, c :: rest =>
    if Text.isBlank c then (ofWord read.reverse :: ·)
      <$> scanFrom .between rest
    else if c = ';' then .ok [ofWord read.reverse]
    else if c = '"' then (ofWord read.reverse :: ·) <$> scanFrom
      (.string []) rest
    else scanFrom (.word (c :: read)) rest
  | .string _, [] => .error .unterminatedString
  | .string read, c :: rest =>
    if c = '"' then (string (String.ofList read.reverse) :: ·)
      <$> scanFrom .between rest
    else if c = '\\' then scanFrom (.escape read) rest
    else scanFrom (.string (c :: read)) rest
  | .escape _, [] => .error .unterminatedString
  | .escape read, c :: rest =>
    match Text.unescape? c with
    | some d => scanFrom (.string (d :: read)) rest
    | none => .error (.badEscape c)

/-- The tokens of a line; blank and comment lines have none. -/
def scan (line : List Char) : Except TokenError (List Token) :=
  scanFrom .between line

end Token

end StackMachine.Assembly
