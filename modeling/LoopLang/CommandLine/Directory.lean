/-!
# Directories

A working directory as data: the contents of each file under its path, and the names of
further directories. Opening a path follows its parts from the working directory on. Of
what lies outside nothing is known but that it is directories up to the root.
-/
namespace LoopLang.CommandLine

/-- Why a path cannot be opened as a file. -/
inductive Unreadable where
  | missing | isDirectory | notDirectory | nameTooLong
  /-- No path holds a character without a code. -/
  | noPath
  deriving DecidableEq

/-- What the user is told about a path that could not be opened, if it is a path. -/
def Unreadable.message? : Unreadable → Option String
  | missing => some "No such file or directory"
  | isDirectory => some "Is a directory"
  | notDirectory => some "Not a directory"
  | nameTooLong => some "File name too long"
  | noPath => none

inductive Entry where
  | file (contents : ByteArray)
  | directory

/-- Entries under their paths, each a list of names. -/
structure Directory where
  entries : List (List String × Entry)

/-- Where a path has led so far. -/
inductive Place where
  | inside (path : List String)
  | outside

def Place.parent : Place → Place
  | inside (name :: path) => inside (name :: path).dropLast
  | inside [] | outside => outside

def nameLimit : Nat := 255

/-- The first number of bytes that is too many for a path. -/
def pathLimit : Nat := 4096

/-- What a name leads to from a place that is a directory. -/
def Place.step (place : Place) (name : String) : Except Unreadable Place :=
  if name = "" ∨ name = "." then .ok place
  else if name = ".." then .ok place.parent
  else if nameLimit < name.utf8ByteSize then .error .nameTooLong
  else
    match place with
    | .inside path => .ok (.inside (path ++ [name]))
    | .outside => .error .missing

namespace Directory

/-- What a path leads to; a path that is only the beginning of others is a directory. -/
def entry? (directory : Directory) (path : List String) : Option Entry :=
  match directory.entries.lookup path with
  | some entry => some entry
  | none =>
    if path.isEmpty || directory.entries.any fun (other, _) => path.isPrefixOf other then
      some .directory
    else none

/-- Follows the names of a path from a place on. -/
def follow (directory : Directory) (place : Place) : List String → Except Unreadable ByteArray
  | [] =>
    match place with
    | .outside => .error .isDirectory
    | .inside path =>
      match directory.entry? path with
      | some (.file contents) => .ok contents
      | some .directory => .error .isDirectory
      | none => .error .missing
  | name :: rest =>
    match place with
    | .outside => do directory.follow (← place.step name) rest
    | .inside path =>
      match directory.entry? path with
      | some (.file _) => .error .notDirectory
      | none => .error .missing
      | some .directory => do directory.follow (← place.step name) rest

/-- Opens a path; one that begins with a slash begins at the root. -/
def read (directory : Directory) (path : String) : Except Unreadable ByteArray :=
  if path.contains '\x00' then .error .noPath
  else if path.isEmpty then .error .missing
  else if pathLimit ≤ path.utf8ByteSize then .error .nameTooLong
  else if path.front = '/' then directory.follow .outside (path.splitOn "/")
  else directory.follow (.inside []) (path.splitOn "/")

end Directory

end LoopLang.CommandLine
