/-
A directory held in memory, for carrying plans out without a file system. It
holds files by their paths; the directories on the way to a file are there
with it. Outside of it stand the root, two directories in it and two devices.
Reading and writing fail as they do on a file system, with the same texts.

A path is looked up from its first name to its last, and the first name that
cannot be looked up gives the error. What a path says after its last name
counts as well: a slash there asks for a directory, which a writer never
makes, and a point after the slash looks the last name up as a directory.
-/
import StackMachine.Command.Plan

namespace StackMachine.Command

/-- Files by the names on their paths. -/
structure Directory where
  files : List (List String × List UInt8) := []

namespace Directory

-- ================================================================= texts

/-- No such file, or none of the directories on the way to it. -/
def notFound : String := "No such file or directory (os error 2)"

/-- A file stands where a directory is needed. -/
def notADirectory : String := "Not a directory (os error 20)"

/-- A directory stands where a file is needed. -/
def isADirectory : String := "Is a directory (os error 21)"

/-- The device that is always full takes nothing. -/
def noSpace : String := "No space left on device (os error 28)"

/-- A name, or a path, is longer than a file system takes. -/
def tooLong : String := "File name too long (os error 36)"

/-- The most bytes in one name. -/
def maxName : Nat := 255

/-- The most bytes in a path. -/
def maxPath : Nat := 4095

-- ================================================================ places

/-- The root of the file system, which no name on a path can spell. -/
def root : List String := ["/"]

/-- What is written to this device is gone. -/
def nullDevice : List String := root ++ ["dev", "null"]

/-- Nothing can be written to this device. -/
def fullDevice : List String := root ++ ["dev", "full"]

/-- One name further from a place. Two points lead back up, out of the
directory itself as well, but not out of the root. -/
def descend (place : List String) (name : String) : List String :=
  if name = ".." ∧ place = root then root
  else if name = ".." ∧ place.any (· ≠ "..") then place.dropLast
  else place ++ [name]

/-- The file at a place. The devices hold nothing. -/
def file? (d : Directory) (target : List String) : Option (List UInt8) :=
  if target = nullDevice ∨ target = fullDevice then some []
  else d.files.lookup target

/-- Whether a place is a directory: the top and all above it, the root and
what is known in it, or on the way to a file. -/
def hasDirectory (d : Directory) (target : List String) : Bool :=
  target.all (· = "..")
    || [root, root ++ ["dev"], root ++ ["tmp"]].contains target
    || d.files.any fun f => target.isPrefixOf f.1 && target.length < f.1.length

/-- The place that names lead to, each looked up in a directory. -/
def resolve
    (d : Directory) : (place names : List String) → Except String (List String)
  | place, [] => .ok place
  | place, name :: rest =>
    if (d.file? place).isSome then .error notADirectory
    else if !d.hasDirectory place then .error notFound
    else if maxName < name.utf8ByteSize then .error tooLong
    else resolve d (descend place name) rest

/-- The place that a path leads to, from the root if it starts with a
slash. -/
def locate (d : Directory) (path : String) : Except String (List String) :=
  if path = "" then .error notFound
  else if maxPath < path.utf8ByteSize then .error tooLong
  else d.resolve (if path.startsWith "/" then root else []) (Path.names path)

/-- Whether a path ends in the directory itself, so that its last name must be
a directory. -/
def endsInPoint (path : String) : Bool :=
  ((Path.stretches path).filter (· ≠ "")).getLast? = some "."

-- ==================================================== reading and writing

/-- Reads a file. -/
def read (d : Directory) (path : String) : Except String (List UInt8) :=
  match d.locate path with
  | .error e => .error e
  | .ok place =>
    match d.file? place with
    | some bytes =>
      if path.endsWith "/" || endsInPoint path then .error notADirectory
      else .ok bytes
    | none => .error (if d.hasDirectory place then isADirectory else notFound)

/-- The directory with a file at a place, instead of an earlier one. -/
def put (d : Directory) (place : List String)
    (bytes : List UInt8) : Directory :=
  { d with files := d.files.filter (·.1 ≠ place) ++ [(place, bytes)] }

/-- Writes a file, instead of an earlier one. A path that ends in a slash asks
for a directory, whether or not there is a file. -/
def write (d : Directory) (path : String)
    (bytes : List UInt8) : Except String Directory :=
  match d.locate path with
  | .error e => .error e
  | .ok place =>
    if d.hasDirectory place then .error isADirectory
    else if endsInPoint path then
      .error (if (d.file? place).isSome then notADirectory else notFound)
    else if path.endsWith "/" then .error isADirectory
    else if place = fullDevice then .error noSpace
    else if place = nullDevice then .ok d
    else .ok (d.put place bytes)

end Directory

/-- Carries a plan out in a directory. -/
def Plan.runIn (d : Directory) : Plan → Report × Directory
  | .finish report => (report, d)
  | .read path next => (next (d.read path)).runIn d
  | .write path bytes next =>
    match d.write path bytes with
    | .ok d => (next (.ok ())).runIn d
    | .error e => (next (.error e)).runIn d

end StackMachine.Command
