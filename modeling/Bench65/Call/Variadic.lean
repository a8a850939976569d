import Bench65.Call
import Bench65.Printf

/-!
# Variadic calls

`printf` and the `open` hook find their arguments in a frame on the C stack whose size the caller
passes in `Y`. What they do with the arguments is written for any source of them (`printfText`,
`openArguments`); here the source is the frame.
-/

namespace Bench65.Call

/-! ### Arguments in a frame -/

/-- Where a variadic call stands with its arguments: what is left of the frame, and the memory with
the counts stored so far. -/
structure FormatState where
  /-- The arguments not yet taken. -/
  frame : VariadicFrame
  /-- The memory. -/
  memory : Memory

/-- Takes something from the argument frame. -/
def takeArgument {α : Type}
    (next : VariadicFrame → Memory → Except Violation.Reason (α × VariadicFrame)) :
    EStateM Violation.Reason FormatState α := fun s =>
  match next s.frame s.memory with
  | .ok (value, frame) => .ok value { s with frame }
  | .error reason => .error reason s

/-- A number stored as some bytes, lowest first. -/
def storeCount (a : UInt16) (n : UInt32) (bytes : Nat) (s : FormatState) : FormatState :=
  let all := [lowByte n.toUInt16, highByte n.toUInt16,
    lowByte (n / 0x10000).toUInt16, highByte (n / 0x10000).toUInt16]
  { s with memory := s.memory.writeBytes a (all.take bytes) }

/-- The arguments in the caller's frame. -/
def frameSource : Printf.Source Violation.Reason FormatState where
  nextInt := takeArgument VariadicFrame.nextWord
  nextLong := takeArgument VariadicFrame.nextLong
  text a most := fun s =>
    match textAt s.memory a most with
    | .ok text => .ok text s
    | .error reason => .error reason s
  store := storeCount

/-! ### What is done with them -/

section Bodies

open Printf

variable {ε σ : Type} (source : Source ε σ)

/-- The first argument of `printf` leads to a format, and the others are for it. -/
def printfText : Rendering ε σ (List UInt8) := do
  let pointer ← fetch source.nextInt
  let format ← fetch (source.text pointer none)
  Printf.format source format

/-- The arguments of `open` are a name, the text of which has to end, and flags. -/
def openArguments : Rendering ε σ Unit := do
  let name ← fetch source.nextInt
  let _ ← fetch source.nextInt
  let _ ← fetch (source.text name none)
  pure ()

end Bodies

/-! ### Answers -/

/-- Why there is no answer to a call whose arguments do not serve. -/
def failure (routine : Routine) : Printf.Error Violation.Reason → Failure
  | .argument reason => .violation ⟨routine, reason⟩
  | .truncated => .violation ⟨routine, .truncatedConversion⟩
  | .unsupported c => .violation ⟨routine, .unsupportedConversion c⟩
  | .tooLong => .abort

/-- Answers a call with at least `fixed` bytes of arguments: does something with them, removes the
whole frame, and finishes. -/
def variadic {α : Type} (c : Call) (routine : Routine) (fixed : UInt8)
    (body : Printf.Rendering Violation.Reason FormatState α) (finish : α → Call → Answer) :
    Answer :=
  match VariadicFrame.ofCall c.stack c.memory c.registers.y fixed with
  | .error reason => c.refuse routine reason
  | .ok frame =>
    match body.run ⟨frame, c.memory⟩ with
    -- counts stored before the failure stay
    | .error e s => (.error (failure routine e), { c with memory := s.memory })
    -- the pointer is stored last, over a count that may have hit its cell
    | .ok a s => finish a { c with memory := frame.close c.stack s.memory }

end Bench65.Call
