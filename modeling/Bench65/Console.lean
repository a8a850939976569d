import Bench65.Console.FailurePlan
import Bench65.Console.Transcript

/-!
# The console

What a program talks to instead of a terminal: input from a script of fixed length, output into a
transcript, with some writes refused by plan. The end of the script is a stable condition, seen
again by every later read. A refused write leaves no trace but its number; an empty write succeeds
and leaves none either.
-/

namespace Bench65

/-- A write call refused by the failure plan. -/
structure WriteFailure where
  /-- The number of the call. -/
  call : Nat
  deriving DecidableEq, Repr

/-- The refusal in words. -/
def WriteFailure.message (f : WriteFailure) : String :=
  s!"write call {f.call} failed"

/-- The console of one run. -/
structure Console where
  /-- The part of the script not yet read. -/
  remaining : List UInt8
  /-- The write calls to refuse. -/
  plan : FailurePlan
  /-- The number of write calls made so far. -/
  writeCalls : Nat
  /-- What was read and written so far. -/
  transcript : Transcript
  deriving DecidableEq, Repr

namespace Console

/-- A console over a script and a failure plan. -/
def start (script : List UInt8) (plan : FailurePlan) : Console :=
  ⟨script, plan, 0, Transcript.empty⟩

/-- The next input byte, or `none` at the end of the script. -/
def peek (c : Console) : Option UInt8 :=
  c.remaining.head?

/-- Reads the next input byte and records it; at the end of the script nothing changes. -/
def consume (c : Console) (step : Nat) : Option UInt8 × Console :=
  match c.remaining with
  | [] => (none, c)
  | b :: rest =>
    let inputs := c.transcript.inputs.push ⟨step, b⟩
    (some b, { c with remaining := rest, transcript := { c.transcript with inputs } })

/-- Writes bytes to a stream as one call: counts the call, refuses it or records it, and yields
the number of bytes written. -/
def write (c : Console) (step : Nat) (stream : Stream) (bytes : List UInt8) :
    Except WriteFailure Nat × Console :=
  let call := c.writeCalls
  if c.plan.fails call then (.error ⟨call⟩, { c with writeCalls := call + 1 })
  else if bytes.isEmpty then (.ok 0, { c with writeCalls := call + 1 })
  else
    let outputs := c.transcript.outputs.push ⟨step, stream, bytes⟩
    (.ok bytes.length,
      { c with writeCalls := call + 1, transcript := { c.transcript with outputs } })

end Console

/-- An input byte as a C `int`: its value, or `-1` at the end of the script. -/
def inputInt : Option UInt8 → Int
  | some b => b.toNat
  | none => -1

end Bench65
