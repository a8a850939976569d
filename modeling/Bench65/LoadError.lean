import Bench65.FileError
import Bench65.Routine
import Bench65.Text.Hex

/-!
# Load errors

Why a program image, a label file or an argument list cannot become a machine that is ready to run.
-/

namespace Bench65

/-- What is wrong with a line of a label file. -/
inductive LabelFault where
  /-- The first field is not the command that defines a label. -/
  | unknownCommand (field : String)
  /-- The line ends before the address. -/
  | missingAddress
  /-- The line ends before the name. -/
  | missingName
  /-- There are fields after the name. -/
  | trailingFields
  /-- The address field is no hexadecimal number of at most 32 bits. -/
  | badAddress (field : String)
  /-- The address is larger than the address space. -/
  | addressTooLarge (address : Nat)
  /-- Nothing is left of the name after its leading dot. -/
  | emptyName
  deriving DecidableEq, Repr

/-- The fault in words. -/
def LabelFault.message : LabelFault → String
  | unknownCommand field => s!"unknown command '{field}'"
  | missingAddress => "missing address"
  | missingName => "missing symbol name"
  | trailingFields => "trailing fields"
  | badAddress field => s!"bad address '{field}'"
  | addressTooLarge a => s!"address ${Hex.padded true 1 a} exceeds $FFFF"
  | emptyName => "empty symbol name"

/-- Why a program could not be loaded. -/
inductive LoadError where
  /-- The file is shorter than its header. -/
  | truncatedHeader (length expected : Nat)
  /-- The file does not start as a program file does. -/
  | badMagic (found : List UInt8)
  /-- The header is of another version. -/
  | unsupportedVersion (version : UInt8)
  /-- The header names an unknown processor. -/
  | unsupportedCpu (cpu : UInt8)
  /-- There is no code. -/
  | emptyPayload
  /-- The C stack pointer needs two bytes of zero page. -/
  | badStackPointer (address : UInt8)
  /-- The code does not fit between `floor` and `limit`. -/
  | imageOutOfBounds (load : UInt16) (length : Nat) (floor : UInt16) (limit : Nat)
  /-- Execution would start outside the code. -/
  | entryOutOfBounds (entry start : UInt16) (stop : Nat)
  /-- An argument contains a zero byte and is no C string. -/
  | interiorNul (index : Nat)
  /-- The argument block does not fit above the code. -/
  | argumentsTooLarge (needed available : Nat) (top : UInt16)
  /-- Two routines are to be answered at one address. -/
  | routineConflict (address : UInt16) (first second : Routine)
  /-- A label file line is malformed. -/
  | badLabel (line : Nat) (fault : LabelFault)
  /-- A file cannot be read. -/
  | unreadable (path : String) (cause : FileError)
  deriving DecidableEq, Repr

namespace LoadError

/-- Bytes as a bracketed list of hexadecimal numbers. -/
def byteList (bytes : List UInt8) : String :=
  "[" ++ String.intercalate ", " (bytes.map Hex.byte) ++ "]"

/-- The error in words. -/
def message : LoadError → String
  | truncatedHeader length expected =>
    s!"image is {length} bytes, shorter than the {expected}-byte sim65 header"
  | badMagic found => s!"bad image magic {byteList found}, expected \"sim65\""
  | unsupportedVersion v => s!"unsupported sim65 header version {v}"
  | unsupportedCpu c => s!"unsupported CPU type {c} in image header"
  | emptyPayload => "image has no payload"
  | badStackPointer a => s!"C stack pointer at ${Hex.byteUpper a} does not fit in zero page"
  | imageOutOfBounds load length floor limit =>
    s!"payload of {length} bytes at ${Hex.wordUpper load} leaves the loadable range " ++
    s!"${Hex.wordUpper floor}-${Hex.padded true 4 limit}"
  | entryOutOfBounds entry start stop =>
    s!"entry point ${Hex.wordUpper entry} lies outside the loaded range " ++
    s!"${Hex.wordUpper start}..${Hex.padded true 5 stop}"
  | interiorNul index => s!"argument {index} contains an interior NUL byte"
  | argumentsTooLarge needed available top =>
    s!"argument vector needs {needed} bytes but only {available} are free below " ++
    s!"${Hex.wordUpper top}"
  | routineConflict a first second =>
    s!"shim address ${Hex.wordUpper a} is claimed by both {first.name} and {second.name}"
  | badLabel line fault => s!"label file line {line}: {fault.message}"
  | unreadable path cause => s!"could not read {path}: {cause.message}"

end LoadError

end Bench65
