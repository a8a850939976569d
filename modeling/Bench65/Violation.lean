import Bench65.Routine
import Bench65.Text.Escape

/-!
# Violations of a calling contract

A routine can only be answered if its caller kept to the calling convention: an even and
sufficient count of argument bytes, enough arguments for the format, text that ends. A violation
names the routine and says what is wrong; it ends the run.
-/

namespace Bench65

/-- The longest text a routine looks through before it gives up finding the end. -/
def textLimit : Nat := 0x1000

/-- What a caller did wrong. -/
inductive Violation.Reason where
  /-- The argument byte count in `Y` is odd. -/
  | oddByteCount (y : UInt8)
  /-- The argument byte count in `Y` does not cover the fixed arguments. -/
  | missingFixedArguments (y fixed : UInt8)
  /-- A conversion needs more argument bytes than are left of those supplied. -/
  | argumentsExhausted (needed left supplied : Nat)
  /-- The format ends before a conversion does. -/
  | truncatedConversion
  /-- The format names a conversion that does not exist. -/
  | unsupportedConversion (conversion : UInt8)
  /-- The text at an address does not end within `textLimit` bytes. -/
  | unterminatedText (address : UInt16)
  /-- A reason in words. -/
  | stated (text : String)
  deriving DecidableEq, Repr

/-- A call that does not keep to its contract. -/
structure Violation where
  /-- The routine called. -/
  routine : Routine
  /-- What is wrong with the call. -/
  reason : Violation.Reason
  deriving DecidableEq, Repr

namespace Violation

/-- The reason in words. -/
def Reason.message : Reason → String
  | oddByteCount y => s!"odd argument byte count {y} in Y"
  | missingFixedArguments y fixed =>
    s!"Y = {y} is smaller than the {fixed} bytes of fixed arguments"
  | argumentsExhausted needed left supplied =>
    s!"conversion needs {needed} more argument bytes but only {left} of {supplied} remain"
  | truncatedConversion => "format string ends inside a conversion"
  | unsupportedConversion c => s!"unsupported conversion '%" ++ Escape.byte c ++ "'"
  | unterminatedText a =>
    s!"string at ${Hex.wordUpper a} is not terminated within {textLimit} bytes"
  | stated text => text

/-- The violation in words: the routine and the reason. -/
def message (v : Violation) : String :=
  s!"{v.routine.name}: {v.reason.message}"

end Violation

end Bench65
