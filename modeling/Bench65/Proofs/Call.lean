import Bench65.Proofs.Call.Variadic
import Bench65.Proofs.Console

/-!
# What answering a call can do

Whatever the routine, an answered call comes to one of four things (`Routine.perform_answered`):
the caller gets a word back, after the console was used in at most one way (`Call.Uses`); the run
ends with the accumulator as its status; the call is refused, or it is one of `printf` with a text
that cannot be held, and then neither the registers nor the console have changed.
-/

namespace Bench65

/-- Counts what came of a write call: the bytes accepted, or the refusal. -/
def Counters.recordWrite (k : Counters) : Except WriteFailure Nat → Counters
  | .ok n => { k with bytesWritten := k.bytesWritten + n }
  | .error _ => { k with writeFailures := k.writeFailures + 1 }

/-- Counts bytes read. -/
def Counters.recordRead (k : Counters) (n : Nat) : Counters :=
  { k with bytesRead := k.bytesRead + n }

namespace Call

/-- How the console of the second call comes from that of the first, and how this was counted: it
was left alone, written to once, or read from. -/
inductive Uses (c c' : Call) : Prop
  | silent (hconsole : c'.console = c.console) (hcounters : c'.counters = c.counters)
  | writes (stream : Stream) (bytes : List UInt8)
      (hconsole : c'.console = (c.console.write c.step stream bytes).2)
      (hcounters : c'.counters =
        c.counters.recordWrite (c.console.write c.step stream bytes).1)
  | reads (n : Nat) (hconsole : c'.console = c.console.read c.step n)
      (hcounters : c'.counters = c.counters.recordRead (c.console.remaining.take n).length)

/-- A use of the console adds events of the call's step to the transcript. -/
theorem Uses.extends {c c' : Call} (h : Uses c c') :
    c.console.transcript.Extends c.step c'.console.transcript := by
  cases h with
  | silent hconsole _ =>
    rw [hconsole]
    exact .refl _ _
  | writes stream bytes hconsole _ =>
    rw [hconsole]
    exact c.console.extends_write c.step stream bytes
  | reads n hconsole _ =>
    rw [hconsole]
    exact c.console.extends_read c.step n

end Call

/-- The answers that a routine can give to a call. -/
inductive Routine.Answered (routine : Routine) (c : Call) : Call.Answer → Prop
  /-- The caller gets a word back. -/
  | returned {c' : Call} (w : UInt16) (hregisters : c'.registers = c.registers.setAX w)
      (huses : c.Uses c') : Answered routine c (.ok .goBack, c')
  /-- The run ends with the accumulator as its status. -/
  | exited (hroutine : routine = .exit ∨ routine = .hostExit) :
      Answered routine c (.ok (.exit c.registers.a.toNat), c)
  /-- The call is refused. -/
  | refused {c' : Call} (reason : Violation.Reason) (hregisters : c'.registers = c.registers)
      (hconsole : c'.console = c.console) (hcounters : c'.counters = c.counters) :
      Answered routine c (.error (.violation ⟨routine, reason⟩), c')
  /-- The text to write cannot be held. -/
  | aborted {c' : Call} (hroutine : routine = .printf) (hregisters : c'.registers = c.registers)
      (hconsole : c'.console = c.console) (hcounters : c'.counters = c.counters) :
      Answered routine c (.error .abort, c')

namespace Call

open Routine (Answered)

variable {routine : Routine}

/-- A call that has only changed memory is refused like the call it was. -/
theorem answered_refuse (c : Call) (m : Memory) (reason : Violation.Reason) :
    Answered routine c ({ c with memory := m }.refuse routine reason) :=
  .refused reason rfl rfl rfl

/-- A call that has only changed memory returns silently. -/
theorem answered_goBackWith (c : Call) (m : Memory) (w : UInt16) :
    Answered routine c ({ c with memory := m }.goBackWith w) :=
  .returned w rfl (.silent rfl rfl)

theorem write_eq (c : Call) (stream : Stream) (bytes : List UInt8) :
    c.write stream bytes =
      ((c.console.write c.step stream bytes).1.toOption,
        { c with
          console := (c.console.write c.step stream bytes).2
          counters := c.counters.recordWrite (c.console.write c.step stream bytes).1 }) := by
  rw [write]
  rcases c.console.write c.step stream bytes with ⟨failure | n, console⟩
  · rfl
  · rfl

/-- A call that has only changed memory returns after its write. -/
theorem answered_writeAndReturn (c : Call) (m : Memory) (stream : Stream) (bytes : List UInt8)
    (result : Nat → UInt16) :
    Answered routine c ({ c with memory := m }.writeAndReturn stream bytes result) := by
  rw [writeAndReturn, write_eq]
  exact .returned _ rfl (.writes stream bytes rfl rfl)

/-! ### Library routines -/

/-- A format that cannot be rendered is refused, unless its text is too long. Counts that were
stored before the failing conversion stay stored. -/
theorem answered_failure (c : Call) (m : Memory) (e : Printf.Error Violation.Reason) :
    Answered .printf c (.error (failure .printf e), { c with memory := m }) := by
  cases e with
  | argument reason => exact .refused reason rfl rfl rfl
  | truncated => exact .refused .truncatedConversion rfl rfl rfl
  | unsupported b => exact .refused (.unsupportedConversion b) rfl rfl rfl
  | tooLong => exact .aborted rfl rfl rfl rfl

theorem answered_printf (c : Call) : Answered .printf c c.printf := by
  rw [printf_eq]
  rcases c.openFormat with reason | ⟨frame, format⟩
  · exact answered_refuse c c.memory reason
  dsimp only
  rcases (Printf.format frameSource format).run ⟨frame, c.memory⟩ with ⟨text, s⟩ | ⟨e, s⟩
  · exact answered_writeAndReturn c _ .stdout text UInt16.ofNat
  · exact answered_failure c s.memory e

theorem answered_puts (c : Call) : Answered .puts c c.puts := by
  rw [puts]
  rcases textAt c.memory c.registers.ax none with reason | text
  · exact answered_refuse c c.memory reason
  · exact answered_writeAndReturn c c.memory .stdout _ _

theorem answered_putchar (c : Call) : Answered .putchar c c.putchar :=
  answered_writeAndReturn c c.memory .stdout _ _

theorem answered_getchar (c : Call) : Answered .getchar c c.getchar := by
  -- one byte is asked for, and none arrives at the end of the script
  rw [getchar, Console.consume_eq, Console.peek]
  cases h : c.console.remaining with
  | nil =>
    refine .returned minusOne rfl (.reads 1 rfl ?_)
    rw [h]
    rfl
  | cons b rest =>
    refine .returned b.toUInt16 rfl (.reads 1 rfl ?_)
    rw [h]
    rfl

/-! ### Host hooks -/

theorem answered_hostOpen (c : Call) : Answered .hostOpen c c.hostOpen := by
  rw [hostOpen_eq]
  rcases c.openFrame with reason | frame
  · exact answered_refuse c c.memory reason
  · exact answered_goBackWith c _ minusOne

theorem answered_hostClose (c : Call) : Answered .hostClose c c.hostClose :=
  answered_goBackWith c c.memory _

/-- Delivery reads as many bytes as asked for, as long as there are any, counts them and puts them
into memory. -/
theorem deliver_eq (step : Nat) : ∀ (count : Nat) (a : UInt16) (n : Nat) (console : Console)
    (m : Memory), deliver step count a n console m =
      (n + (console.remaining.take count).length, console.read step count,
        m.writeBytes a (console.remaining.take count)) := by
  intro count
  induction count with
  | zero =>
    intro a n console m
    rw [console.read_zero step]
    rfl
  | succ count ih =>
    intro a n console m
    rw [deliver, Console.consume_eq, Console.peek]
    cases h : console.remaining with
    | nil =>
      -- at the end of the script reading changes nothing, however much is asked for
      rw [Console.read_of_remaining_eq_nil h, Console.read_of_remaining_eq_nil h]
      rfl
    | cons b rest =>
      have hremaining : (console.read step 1).remaining = rest := by
        show console.remaining.drop 1 = rest
        rw [h]
        rfl
      dsimp only [List.head?_cons]
      rw [ih, hremaining, Console.read_read, Nat.add_comm 1 count, List.take_succ_cons,
        List.length_cons, Nat.add_assoc, Nat.add_comm 1]
      rfl

theorem answered_hostRead (c : Call) : Answered .hostRead c c.hostRead := by
  rw [hostRead]
  dsimp only
  by_cases hfile : (c.pop.2.pop).1 ≠ 0
  · rw [if_pos hfile]
    exact answered_goBackWith c _ minusOne
  -- the count that comes back is the number of bytes that arrived
  rw [if_neg hfile, deliver_eq, Nat.zero_add]
  exact .returned _ rfl (.reads _ rfl rfl)

theorem answered_hostWrite (c : Call) : Answered .hostWrite c c.hostWrite := by
  rw [hostWrite]
  dsimp only
  rcases outputStream? (c.pop.2.pop).1 with none | stream
  · exact answered_goBackWith c _ minusOne
  · exact answered_writeAndReturn c _ stream _ UInt16.ofNat

theorem answered_hostArgs (c : Call) : Answered .hostArgs c c.hostArgs :=
  answered_goBackWith c _ _

end Call

/-- Every routine answers in one of the four ways. -/
theorem Routine.perform_answered (routine : Routine) (c : Call) :
    Answered routine c (routine.perform c) := by
  cases routine with
  | printf => exact c.answered_printf
  | puts => exact c.answered_puts
  | putchar => exact c.answered_putchar
  | getchar => exact c.answered_getchar
  | exit => exact .exited (.inl rfl)
  | hostOpen => exact c.answered_hostOpen
  | hostClose => exact c.answered_hostClose
  | hostRead => exact c.answered_hostRead
  | hostWrite => exact c.answered_hostWrite
  | hostArgs => exact c.answered_hostArgs
  | hostExit => exact .exited (.inr rfl)

end Bench65
