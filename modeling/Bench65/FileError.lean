/-!
# File errors

Why a path leads to no contents, or to contents that are no text.
-/

namespace Bench65

/-- Why a file cannot be read. -/
inductive FileError where
  /-- There is nothing at the path. -/
  | notFound
  /-- A name that is not the last one leads to a file. -/
  | notDirectory
  /-- The path leads to a directory. -/
  | isDirectory
  /-- The path or a name in it is longer than names can be. -/
  | nameTooLong
  /-- The path contains a zero character. -/
  | zeroInName
  /-- The contents are not UTF-8. -/
  | notText
  deriving DecidableEq, Repr

/-- The error in words. -/
def FileError.message : FileError → String
  | notFound => "No such file or directory (os error 2)"
  | notDirectory => "Not a directory (os error 20)"
  | isDirectory => "Is a directory (os error 21)"
  | nameTooLong => "File name too long (os error 36)"
  | zeroInName => "file name contained an unexpected NUL byte"
  | notText => "stream did not contain valid UTF-8"

end Bench65
