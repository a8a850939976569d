import Bench65.DocumentError
import Bench65.Fault
import Bench65.LoadError

/-!
# Verdicts

What a test case comes to. A run that went to its end is compared with what was expected and passes
or fails by the first difference. A case that could not be loaded, or whose run faulted
unexpectedly, is an error; running out of budget is a verdict of its own.
-/

namespace Bench65

/-- The first difference between a run and what was expected of it. -/
inductive Mismatch where
  /-- Standard output differs; at the end of either side there is no byte. -/
  | output (offset : Nat) (expected actual : Option UInt8)
  /-- Standard error differs. -/
  | errorOutput (offset : Nat) (expected actual : Option UInt8)
  /-- The exit status differs. -/
  | exitStatus (expected actual : Int)
  /-- A fault was expected, but the program exited. -/
  | missingFault (expected : FaultKind) (status : Int)
  deriving DecidableEq, Repr

namespace Mismatch

/-- A byte of a stream, or the stream's end. -/
def byteText : Option UInt8 → String
  | some b => Escape.byteWithChar b
  | none => "end of output"

/-- The difference in words. -/
def message : Mismatch → String
  | output offset expected actual =>
    s!"output differs at byte {offset}: expected {byteText expected}, got {byteText actual}"
  | errorOutput offset expected actual =>
    s!"stderr differs at byte {offset}: expected {byteText expected}, got {byteText actual}"
  | exitStatus expected actual => s!"exit status {actual}, expected {expected}"
  | missingFault expected status =>
    s!"expected a {expected.name} fault, but the program exited with status {status}"

end Mismatch

/-- Everything that can go wrong with a case or a command. -/
inductive BenchError where
  /-- The program could not be loaded. -/
  | load (cause : LoadError)
  /-- The run met an illegal opcode. -/
  | illegalInstruction (address : UInt16) (opcode : UInt8)
  /-- A routine was called against its contract. -/
  | contractViolation (violation : Violation)
  /-- The run timed out. -/
  | timeout (steps : Nat)
  /-- The run is not as expected. -/
  | mismatch (difference : Mismatch)
  /-- A document is of no use. -/
  | document (cause : DocumentError)
  /-- The worker that should have run the case stopped. -/
  | workerStopped
  /-- The run was aborted, and with it the program that would have reported it. -/
  | aborted
  deriving DecidableEq, Repr

namespace BenchError

/-- A fault as an error. -/
def ofFault : Fault → BenchError
  | .illegalInstruction a opcode => illegalInstruction a opcode
  | .contractViolation _ v => contractViolation v
  | .timeout steps => timeout steps

/-- The error in words. -/
def message : BenchError → String
  | load e => s!"load error: {e.message}"
  | illegalInstruction a opcode =>
    s!"illegal instruction ${Hex.byteUpper opcode} at ${Hex.wordUpper a}"
  | contractViolation v => s!"shim mismatch: {v.message}"
  | timeout steps => s!"timeout after {steps} steps"
  | mismatch d => s!"assertion mismatch: {d.message}"
  | document e => s!"manifest error: {e.message}"
  | workerStopped => "worker thread stopped before running this case"
  | aborted => "run aborted"

end BenchError

/-- What a case comes to. -/
inductive Verdict where
  /-- The run is as expected. -/
  | pass
  /-- The run went to its end and differs. -/
  | fail (difference : Mismatch)
  /-- The case could not be run, or its run faulted unexpectedly. -/
  | error (cause : BenchError)
  /-- The run timed out. -/
  | timeout (steps : Nat)
  deriving DecidableEq, Repr

namespace Verdict

/-- Whether the case passed. -/
def isPass : Verdict → Bool
  | pass => true
  | _ => false

/-- The verdict in one word. -/
def tag : Verdict → String
  | pass => "PASS"
  | fail _ => "FAIL"
  | error _ => "ERROR"
  | timeout _ => "TIMEOUT"

/-- The verdict with its particulars. -/
def message : Verdict → String
  | pass => "PASS"
  | fail d => s!"FAIL ({d.message})"
  | error e => s!"ERROR ({e.message})"
  | timeout steps => s!"TIMEOUT ({steps} steps)"

/-- The particulars of a verdict behind the name of its case. -/
def detail : Verdict → String
  | pass => ""
  | fail d => s!": {d.message}"
  | error e => s!": {e.message}"
  | timeout steps => s!": step budget exhausted after {steps} steps"

end Verdict

end Bench65
