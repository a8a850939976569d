/-!
# Paths

Paths as text: names with slashes between them. Joining and taking apart never look at any file.
-/

namespace Bench65.Path

/-- The names in a path. Slashes that follow each other have an empty name between them. -/
def names (path : String) : List String :=
  path.splitOn "/"

/-- Whether a path starts at the root. -/
def isAbsolute (path : String) : Bool :=
  path.startsWith "/"

/-- A path counted from a directory. An absolute path replaces the directory. -/
def join (directory path : String) : String :=
  if isAbsolute path then path
  else if directory = "" ∨ directory.endsWith "/" then directory ++ path
  else directory ++ "/" ++ path

/-- The greatest length of a path that can be followed, in bytes. -/
def maxLength : Nat :=
  4095

/-- The greatest length of a name in a path, in bytes. -/
def maxNameLength : Nat :=
  255

/-- Names, last one first, without those at their front that stand for no step: empty ones, and
`.` except at the start of the path. -/
def dropIdle : List String → List String
  | [] => []
  | [name] => if name = "" then [] else [name]
  | name :: others => if name = "" ∨ name = "." then dropIdle others else name :: others

/-- The directory a path lies in, as it is written in the path. -/
def directory (path : String) : String :=
  let steps := ((names path).drop (if isAbsolute path then 1 else 0)).reverse
  let above := "/".intercalate (dropIdle ((dropIdle steps).drop 1)).reverse
  if isAbsolute path then "/" ++ above else above

end Bench65.Path
