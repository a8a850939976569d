import Bench65.ArgumentBlock
import Bench65.Call.CStack
import Bench65.Console
import Bench65.Counters
import Bench65.Cpu.Registers

/-!
# Calls

A call of a routine: the registers and the memory as its caller left them, the console and the
counters of the run. Answering it yields the call as it stands afterwards and either an action for
the machine or the reason why there is none: a violation of the calling contract, or a text that
cannot be held. Whatever a routine changed before it failed stays changed.

A C `int` result travels in `A` and `X`; `-1` is the word `$FFFF`.
-/

namespace Bench65

/-- Everything a routine may look at or change. -/
structure Call where
  /-- The registers; arguments arrive and results leave in `A`, `X` and `Y`. -/
  registers : Registers
  /-- The memory. -/
  memory : Memory
  /-- The console. -/
  console : Console
  /-- The counters. -/
  counters : Counters
  /-- The C stack. -/
  stack : CStack
  /-- Where the program's arguments lie. -/
  arguments : ArgumentBlock
  /-- The step of the call. -/
  step : Nat

/-- What the machine does after a call has been answered. -/
inductive Action where
  /-- Return to the caller. -/
  | goBack
  /-- End the run. -/
  | exit (status : Int)
  deriving DecidableEq, Repr

namespace Call

/-- Why a call has no answer. -/
inductive Failure where
  /-- The caller did not keep to the contract. -/
  | violation (v : Violation)
  /-- The text to write is too long for any buffer, which is more than the machine can bear. -/
  | abort
  deriving DecidableEq, Repr

/-- The answer to a call: what to do, or why there is nothing; and the call afterwards. -/
abbrev Answer := Except Failure Action × Call

/-- The result `-1`. -/
def minusOne : UInt16 := 0xFFFF

/-- The call with a result in `A` and `X`. -/
def returnWord (c : Call) (w : UInt16) : Call :=
  { c with registers := c.registers.setAX w }

/-- Returns to the caller with a result. -/
def goBackWith (c : Call) (w : UInt16) : Answer :=
  (.ok .goBack, c.returnWord w)

/-- Refuses the call. -/
def refuse (c : Call) (routine : Routine) (reason : Violation.Reason) : Answer :=
  (.error (.violation ⟨routine, reason⟩), c)

/-- Pops a word from the C stack. -/
def pop (c : Call) : UInt16 × Call :=
  let (w, memory) := c.stack.pop c.memory
  (w, { c with memory })

/-- Writes bytes as one console call and counts them, or counts the refusal. -/
def write (c : Call) (stream : Stream) (bytes : List UInt8) : Option Nat × Call :=
  match c.console.write c.step stream bytes with
  | (.ok n, console) =>
    let counters := { c.counters with bytesWritten := c.counters.bytesWritten + n }
    (some n, { c with console, counters })
  | (.error _, console) =>
    let counters := { c.counters with writeFailures := c.counters.writeFailures + 1 }
    (none, { c with console, counters })

/-- Writes bytes and returns the given result, or `-1` if the write is refused. -/
def writeAndReturn (c : Call) (stream : Stream) (bytes : List UInt8) (result : Nat → UInt16) :
    Answer :=
  let (written, c) := c.write stream bytes
  c.goBackWith (written.elim minusOne result)

/-- The text at an address. Where no more than `most` bytes matter it need not end; otherwise its
end must come within `textLimit` bytes. -/
def textAt (m : Memory) (a : UInt16) (most : Option Nat) :
    Except Violation.Reason (List UInt8) :=
  match most with
  -- beyond the limit nothing is read, even if more is asked for
  | some most => .ok ((m.readBytes a (min most textLimit)).takeWhile (· ≠ 0))
  | none =>
    match m.text? a textLimit with
    | some text => .ok text
    | none => .error (.unterminatedText a)

end Call

end Bench65
