import Bench65.Proofs.Call

/-!
# What a routine asks for

A routine looks at the registers and at the memory, and what it finds there decides what it asks
for: `Routine.request`. The console and the counters come in only when the request is met
(`Request.answer`); `perform_eq_answer` says that this is how routines are performed. Calls that
differ in console and counters alone therefore make the same request, and what becomes of them can
be compared request by request: `perform_withCycles` says that no routine looks at the clock.
-/

namespace Bench65

namespace Call

/-- What a routine asks for, having changed the memory to `m`. -/
inductive Request where
  /-- To end the run without an answer. -/
  | refuse (m : Memory) (failure : Failure)
  /-- To return a word. -/
  | goBack (m : Memory) (w : UInt16)
  /-- To end the run. -/
  | exit (status : Int)
  /-- To write bytes and return what `result` makes of their number. -/
  | write (m : Memory) (stream : Stream) (bytes : List UInt8) (result : Nat → UInt16)
  /-- To read one byte and return it. -/
  | getByte
  /-- To read up to `count` bytes into memory and return their number. -/
  | read (m : Memory) (buffer : UInt16) (count : Nat)

/-- Reads up to `count` bytes of the script into memory and returns their number. -/
def readInto (c : Call) (buffer : UInt16) (count : Nat) : Answer :=
  let (n, console, memory) := deliver c.step count buffer 0 c.console c.memory
  { c with console, memory, counters := c.counters.recordRead n }.goBackWith (UInt16.ofNat n)

/-- The answer to a call that makes a request. -/
def Request.answer (c : Call) : Request → Answer
  | refuse m failure => (.error failure, { c with memory := m })
  | goBack m w => { c with memory := m }.goBackWith w
  | exit status => (.ok (.exit status), c)
  | write m stream bytes result => { c with memory := m }.writeAndReturn stream bytes result
  | getByte => c.getchar
  | read m buffer count => { c with memory := m }.readInto buffer count

/-! ### The requests of the routines -/

/-- `printf` asks for its text to be written, with the frame of its arguments removed. -/
def requestPrintf (c : Call) : Request :=
  match c.openFormat with
  | .error reason => .refuse c.memory (.violation ⟨.printf, reason⟩)
  | .ok (frame, format) =>
    match (Printf.format frameSource format).run ⟨frame, c.memory⟩ with
    | .error e s => .refuse s.memory (failure .printf e)
    | .ok text s => .write (frame.close c.stack s.memory) .stdout text UInt16.ofNat

/-- `puts` asks for its line to be written. -/
def requestPuts (c : Call) : Request :=
  match textAt c.memory c.registers.ax none with
  | .error reason => .refuse c.memory (.violation ⟨.puts, reason⟩)
  | .ok text => .write c.memory .stdout (text ++ [Ascii.byte '\n']) fun _ => 0

/-- `open` removes its frame and fails. -/
def requestOpen (c : Call) : Request :=
  match c.openFrame with
  | .error reason => .refuse c.memory (.violation ⟨.hostOpen, reason⟩)
  | .ok frame => .goBack (frame.close c.stack c.memory) minusOne

/-- `read` asks for input on descriptor 0, and else fails. -/
def requestRead (c : Call) : Request :=
  let popped := c.pop.2.pop
  if popped.1 ≠ 0 then .goBack popped.2.memory minusOne
  else .read popped.2.memory c.pop.1 c.registers.ax.toNat

/-- `write` asks for bytes of memory to be written, and fails without a stream to write to. -/
def requestWrite (c : Call) : Request :=
  let popped := c.pop.2.pop
  match outputStream? popped.1 with
  | none => .goBack popped.2.memory minusOne
  | some stream =>
    .write popped.2.memory stream (popped.2.memory.readBytes c.pop.1 c.registers.ax.toNat)
      UInt16.ofNat

/-- `args` stores where the arguments are and moves the C stack below them. -/
def requestArgs (c : Call) : Request :=
  let block := c.arguments
  let memory := c.memory.writeWord c.registers.ax block.tableAddress
  let moved :=
    if block.start < c.stack.pointer memory then c.stack.setPointer memory block.start else memory
  .goBack moved block.count

end Call

/-- What a routine asks for. -/
def Routine.request (routine : Routine) (c : Call) : Call.Request :=
  match routine with
  | .printf => c.requestPrintf
  | .puts => c.requestPuts
  | .putchar => .write c.memory .stdout [c.registers.a] fun _ => c.registers.a.toUInt16
  | .getchar => .getByte
  | .exit | .hostExit => .exit c.registers.a.toNat
  | .hostOpen => c.requestOpen
  | .hostClose => .goBack c.memory (if c.registers.ax ≤ 2 then 0 else Call.minusOne)
  | .hostRead => c.requestRead
  | .hostWrite => c.requestWrite
  | .hostArgs => c.requestArgs

namespace Call

theorem printf_eq_answer (c : Call) : c.printf = c.requestPrintf.answer c := by
  rw [printf_eq]
  unfold requestPrintf
  rcases c.openFormat with reason | ⟨frame, format⟩
  · rfl
  · -- whether it is written or refused, the memory is the one that rendering leaves
    dsimp only
    cases (Printf.format frameSource format).run ⟨frame, c.memory⟩ with
    | error e s => rfl
    | ok text s => rfl

theorem puts_eq_answer (c : Call) : c.puts = c.requestPuts.answer c := by
  unfold puts requestPuts
  cases textAt c.memory c.registers.ax none with
  | error reason => rfl
  | ok text => rfl

theorem hostOpen_eq_answer (c : Call) : c.hostOpen = c.requestOpen.answer c := by
  rw [hostOpen_eq]
  unfold requestOpen
  cases c.openFrame with
  | error reason => rfl
  | ok frame => rfl

theorem hostRead_eq_answer (c : Call) : c.hostRead = c.requestRead.answer c := by
  unfold hostRead requestRead
  dsimp only
  split
  · rfl
  · rfl

theorem hostWrite_eq_answer (c : Call) : c.hostWrite = c.requestWrite.answer c := by
  unfold hostWrite requestWrite
  dsimp only
  cases outputStream? c.pop.2.pop.1 with
  | none => rfl
  | some stream => rfl

end Call

variable (routine : Routine) (c : Call)

/-- To perform a routine is to meet its request. -/
theorem Routine.perform_eq_answer : routine.perform c = (routine.request c).answer c := by
  cases routine with
  | printf => exact c.printf_eq_answer
  | puts => exact c.puts_eq_answer
  | hostOpen => exact c.hostOpen_eq_answer
  | hostRead => exact c.hostRead_eq_answer
  | hostWrite => exact c.hostWrite_eq_answer
  | _ => rfl

/-- The request depends neither on the console nor on the counters. -/
theorem Routine.request_with (console : Console) (counters : Counters) :
    routine.request { c with console, counters } = routine.request c := by
  cases routine with
  | _ => rfl

/-! ### The clock -/

/-- The counters with another count of cycles. -/
def Counters.withCycles (k : Counters) (cycles : Nat) : Counters :=
  { k with cycles }

/-- The call with another count of cycles. -/
def Call.withCycles (c : Call) (cycles : Nat) : Call :=
  { c with counters := c.counters.withCycles cycles }

theorem Call.writeAndReturn_withCycles (stream : Stream) (bytes : List UInt8)
    (result : Nat → UInt16) (cycles : Nat) :
    (c.withCycles cycles).writeAndReturn stream bytes result =
      ((c.writeAndReturn stream bytes result).1,
        (c.writeAndReturn stream bytes result).2.withCycles cycles) := by
  unfold writeAndReturn write withCycles
  dsimp only
  -- an event is stamped with the step of the call, not with the clock
  cases c.console.write c.step stream bytes with
  | mk outcome console =>
    cases outcome with
    | error failure => rfl
    | ok n => rfl

theorem Call.getchar_withCycles (cycles : Nat) :
    (c.withCycles cycles).getchar = (c.getchar.1, c.getchar.2.withCycles cycles) := by
  unfold getchar withCycles
  dsimp only
  cases c.console.consume c.step with
  | mk byte console =>
    cases byte with
    | none => rfl
    | some b => rfl

theorem Call.Request.answer_withCycles (q : Request) (cycles : Nat) :
    q.answer (c.withCycles cycles) =
      ((q.answer c).1, (q.answer c).2.withCycles cycles) := by
  cases q with
  | write m stream bytes result =>
    exact writeAndReturn_withCycles { c with memory := m } stream bytes result cycles
  | getByte => exact getchar_withCycles c cycles
  | _ => rfl

/-- No routine looks at the clock. -/
theorem Routine.perform_withCycles (cycles : Nat) :
    routine.perform (c.withCycles cycles) =
      ((routine.perform c).1, (routine.perform c).2.withCycles cycles) := by
  have hrequest : routine.request (c.withCycles cycles) = routine.request c :=
    routine.request_with c c.console _
  rw [perform_eq_answer, perform_eq_answer, hrequest, Call.Request.answer_withCycles]

end Bench65
