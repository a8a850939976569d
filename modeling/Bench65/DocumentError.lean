import Bench65.FileError

/-!
# Document errors

Why a configuration or a manifest, or a file that a manifest names, is of no use.
-/

namespace Bench65

/-- What is wrong with a document. -/
inductive DocumentFault where
  /-- It is no JSON. -/
  | malformed
  /-- It is JSON of another form. -/
  | unexpected
  deriving DecidableEq, Repr

/-- The fault in words. -/
def DocumentFault.message : DocumentFault → String
  | malformed => "malformed JSON"
  | unexpected => "unexpected, missing or repeated content"

/-- Why a document is of no use. -/
inductive DocumentError where
  /-- The file cannot be read. -/
  | unreadable (path : String) (cause : FileError)
  /-- The text describes no configuration. -/
  | configuration (fault : DocumentFault)
  /-- The text describes no manifest. -/
  | manifest (fault : DocumentFault)
  deriving DecidableEq, Repr

/-- The error in words. -/
def DocumentError.message : DocumentError → String
  | unreadable path cause => s!"could not read {path}: {cause.message}"
  | configuration fault => s!"invalid configuration: {fault.message}"
  | manifest fault => s!"invalid manifest: {fault.message}"

end Bench65
