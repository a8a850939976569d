import Bench65.Call.Variadic

/-!
# Host hooks

The six calls through which the runtime library of a program reaches its host. Hooks with a fixed
number of arguments take the last one in `A` and `X` and pop the others from the C stack. There are
no files: opening one always fails, and only the three standard descriptors exist.
-/

namespace Bench65.Call

/-- `open` removes its frame and returns `-1`. -/
def hostOpen (c : Call) : Answer :=
  c.variadic .hostOpen 4 (openArguments frameSource) fun _ c => c.goBackWith minusOne

/-- `close` succeeds on the standard descriptors. -/
def hostClose (c : Call) : Answer :=
  c.goBackWith (if c.registers.ax ≤ 2 then 0 else minusOne)

/-- Reads up to `count` bytes of the script into memory from `a` on, after `n` that have been read
before. -/
def deliver (step : Nat) : (count : Nat) → (a : UInt16) → (n : Nat) → Console → Memory →
    Nat × Console × Memory
  | 0, _, n, console, m => (n, console, m)
  | count + 1, a, n, console, m =>
    match console.consume step with
    | (some b, console) => deliver step count (a + 1) (n + 1) console (m.write a b)
    | (none, console) => (n, console, m)

/-- `read` delivers input on descriptor 0 and returns the number of bytes delivered, fewer than
asked for only at the end of the script. -/
def hostRead (c : Call) : Answer :=
  -- the last argument comes in A and X, the others lie on the C stack, the later one on top
  let count := c.registers.ax
  let (buffer, c) := c.pop
  let (descriptor, c) := c.pop
  if descriptor ≠ 0 then c.goBackWith minusOne
  else
    let (n, console, memory) := deliver c.step count.toNat buffer 0 c.console c.memory
    let counters := { c.counters with bytesRead := c.counters.bytesRead + n }
    { c with console, memory, counters }.goBackWith (UInt16.ofNat n)

/-- The stream of a descriptor that can be written to. -/
def outputStream? (descriptor : UInt16) : Option Stream :=
  if descriptor = 1 then some .stdout else if descriptor = 2 then some .stderr else none

/-- `write` writes bytes from memory at once and returns their number. -/
def hostWrite (c : Call) : Answer :=
  let count := c.registers.ax
  let (buffer, c) := c.pop
  let (descriptor, c) := c.pop
  match outputStream? descriptor with
  | none => c.goBackWith minusOne
  | some stream =>
    c.writeAndReturn stream (c.memory.readBytes buffer count.toNat) UInt16.ofNat

/-- `args` stores the address of the argument table where `A` and `X` point and returns the number
of arguments. A C stack that starts above the argument block is moved below it. -/
def hostArgs (c : Call) : Answer :=
  let block := c.arguments
  let memory := c.memory.writeWord c.registers.ax block.tableAddress
  -- the pointer is read after the store, which may have hit its cell
  let memory :=
    if block.start < c.stack.pointer memory then c.stack.setPointer memory block.start else memory
  { c with memory }.goBackWith block.count

/-- `exit` ends the run with the low byte of its argument. -/
def hostExit (c : Call) : Answer :=
  (.ok (.exit c.registers.a.toNat), c)

end Bench65.Call
