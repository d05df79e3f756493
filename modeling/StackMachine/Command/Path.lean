/-
Paths as the command line writes them: names separated by slashes, of which
the last tells by its extension what a file holds. A name that starts with
its only point has no extension.
-/
import StackMachine.Text.Letters

namespace StackMachine.Command.Path

/-- What stands between the slashes of a path. -/
def stretches (path : String) : List String :=
  (path.toList.splitOn '/').map String.ofList

/-- The names in a path; empty names and the name of the directory
itself say nothing. -/
def names (path : String) : List String :=
  (stretches path).filter fun name => name ≠ "" ∧ name ≠ "."

/-- The last name, unless it leads back up. -/
def fileName? (path : String) : Option String :=
  match (names path).getLast? with
  | some ".." => none
  | name => name

/-- A file name up to its last point, and what follows it. -/
def splitExtension (name : String) : String × Option String :=
  let cs := name.toList
  let after := (cs.reverse.takeWhile (· ≠ '.')).reverse
  let before := cs.take (cs.length - after.length - 1)
  if cs.contains '.'
    ∧ !before.isEmpty then (String.ofList before, some (String.ofList after))
  else (name, none)

/-- The extension of the last name. -/
def extension? (path : String) : Option String :=
  match fileName? path with
  | some name => (splitExtension name).2
  | none => none

/-- A path without what follows its last name, last character first. -/
def dropTail : List Char → List Char
  | '/' :: rest => dropTail rest
  | '.' :: '/' :: rest => dropTail ('/' :: rest)
  | cs => cs

/-- The path with an extension on its last name, instead of what follows its
last point. A path that leads back up has no name to put it on. -/
def setExtension (path extension : String) : String :=
  match fileName? path with
  | none => path
  | some name =>
    let cs := (dropTail path.toList.reverse).reverse
    String.ofList (cs.take (cs.length - name.length))
      ++ (splitExtension name).1 ++ "." ++ extension

/-- The path without as many characters at its end as its extension has. -/
def dropExtension (path : String) : String :=
  String.ofList
    (path.toList.take (path.length - ((extension? path).getD "").length))

/-- The path with another extension. The old one goes first, up to its point,
so that a name of two points and an extension leads back up. -/
def withExtension (path extension : String) : String :=
  setExtension (dropExtension path) extension

end StackMachine.Command.Path
