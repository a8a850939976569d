import Bench65.DocumentError
import Bench65.LoadError
import Bench65.Path

/-!
# Files

What a command can read is known before it runs: a function from paths to contents. It may come
from a tree of files in memory (`FileTree.files`) or from files that were read beforehand
(`Files.ofContents`). A file that cannot be read is a load error where a program needs it, and a
document error where a document is read or names it.
-/

namespace Bench65

/-- The files that can be read. -/
structure Files where
  /-- The contents of the file at a path. -/
  read : String → Except FileError (List UInt8)

namespace Files

/-- Files known by exactly the paths they were read under. -/
def ofContents (contents : List (String × List UInt8)) : Files where
  read path :=
    match contents.lookup path with
    | some bytes => .ok bytes
    | none => .error .notFound

/-- The text of a file, which must be UTF-8. -/
def readText (files : Files) (path : String) : Except FileError String := do
  let bytes ← files.read path
  match String.fromUTF8? bytes.toByteArray with
  | some text => pure text
  | none => throw .notText

/-- The contents of a file that a program needs. -/
def load (files : Files) (path : String) : Except LoadError (List UInt8) :=
  (files.read path).mapError (.unreadable path)

/-- The text of a file that a program needs. -/
def loadText (files : Files) (path : String) : Except LoadError String :=
  (files.readText path).mapError (.unreadable path)

/-- The contents of a file that a document names. -/
def contents (files : Files) (path : String) : Except DocumentError (List UInt8) :=
  (files.read path).mapError (.unreadable path)

/-- The text of a document. -/
def document (files : Files) (path : String) : Except DocumentError String :=
  (files.readText path).mapError (.unreadable path)

end Files

/-- The files below the current directory, each with the names that lead to it. -/
structure FileTree where
  /-- Names and contents. -/
  entries : List (List String × List UInt8)

namespace FileTree

/-- The tree of the files with the given paths. Of several contents for one path the last
counts. -/
def ofList (files : List (String × List UInt8)) : FileTree :=
  ⟨files.reverse.map fun (path, bytes) =>
    ((Path.names path).filter fun n => n ≠ "" ∧ n ≠ ".", bytes)⟩

/-- Whether some names lead to a directory: to the current one or to one that holds something. -/
def isDirectory (tree : FileTree) (place : List String) : Bool :=
  place.isEmpty ||
    tree.entries.any fun (names, _) => place.isPrefixOf names && place.length < names.length

/-- Why a place that is no file cannot be read. -/
def placeError (tree : FileTree) (place : List String) : FileError :=
  if tree.isDirectory place then .isDirectory else .notFound

/-- The contents of the file at a place. -/
def contentsAt (tree : FileTree) (place : List String) : Except FileError (List UInt8) :=
  match tree.entries.lookup place with
  | some bytes => .ok bytes
  | none => .error (tree.placeError place)

/-- Follows names from a place. Only directories can be left. Empty names and `.` stay, `..` goes
up but not out of the tree, other names go down. -/
def follow (tree : FileTree) (place : List String) : List String → Except FileError (List String)
  | [] => .ok place
  | name :: rest =>
    if !tree.isDirectory place then
      .error (if (tree.entries.lookup place).isSome then .notDirectory else .notFound)
    else if name = "" ∨ name = "." then tree.follow place rest
    else if name = ".." then
      if place.isEmpty then .error .notFound else tree.follow place.dropLast rest
    else if Path.maxNameLength < name.utf8ByteSize then .error .nameTooLong
    else tree.follow (place ++ [name]) rest

/-- Reads the file at a path. Nothing outside the tree exists. -/
def read (tree : FileTree) (path : String) : Except FileError (List UInt8) :=
  if path.contains '\x00' then .error .zeroInName
  else if Path.maxLength < path.utf8ByteSize then .error .nameTooLong
  else if path.isEmpty || Path.isAbsolute path then .error .notFound
  else do
    let place ← tree.follow [] (Path.names path)
    tree.contentsAt place

/-- The files as a command reads them. -/
def files (tree : FileTree) : Files :=
  ⟨tree.read⟩

end FileTree

end Bench65
