import Bench65.Violation

/-!
# Faults

The three ways a run ends other than by an exit call.
-/

namespace Bench65

/-- A condition that stops the processor. -/
inductive Fault where
  /-- The byte at `address` stands for no instruction of the variant. -/
  | illegalInstruction (address : UInt16) (opcode : UInt8)
  /-- The routine at `address` was called against its contract. -/
  | contractViolation (address : UInt16) (violation : Violation)
  /-- The step budget ran out after `steps` steps. -/
  | timeout (steps : Nat)
  deriving DecidableEq, Repr

/-- A fault without its particulars: what a test case may expect. -/
inductive FaultKind where
  | illegalInstruction
  | contractViolation
  | timeout
  deriving DecidableEq, Repr

/-- The name by which manifests and reports call the kind. -/
def FaultKind.name : FaultKind → String
  | illegalInstruction => "IllegalInstruction"
  | contractViolation => "ShimMismatch"
  | timeout => "Timeout"

namespace Fault

/-- The kind of a fault. -/
def kind : Fault → FaultKind
  | illegalInstruction .. => .illegalInstruction
  | contractViolation .. => .contractViolation
  | timeout .. => .timeout

/-- The fault in words. -/
def message : Fault → String
  | illegalInstruction a opcode =>
    s!"illegal instruction ${Hex.byteUpper opcode} at ${Hex.wordUpper a}"
  | contractViolation a v => s!"shim mismatch at ${Hex.wordUpper a}: {v.message}"
  | timeout steps => s!"step budget of {steps} steps exhausted"

/-- The fault with the names of its parts, for state dumps. -/
def dump : Fault → String
  | illegalInstruction a opcode =>
    s!"IllegalInstruction \x7b addr: {a}, opcode: {opcode} \x7d"
  | contractViolation a v =>
    s!"ShimMismatch \x7b addr: {a}, mismatch: ShimMismatch \x7b " ++
    s!"routine: {Escape.quoted v.routine.name}, reason: {Escape.quoted v.reason.message} \x7d \x7d"
  | timeout steps => s!"Timeout \x7b steps: {steps} \x7d"

end Fault

end Bench65
