import Bench65.Call.Variadic

/-!
# Library routines

The five routines of the C library. Each reads its arguments by the calling convention, makes at
most one console call, and leaves its result in `A` and `X`; a refused write makes it `-1`.
-/

namespace Bench65.Call

/-- `printf` renders its format with the arguments below it, removes the frame, writes the text
at once and returns its length. -/
def printf (c : Call) : Answer :=
  c.variadic .printf 2 (printfText frameSource) fun text c =>
    c.writeAndReturn .stdout text UInt16.ofNat

/-- `puts` writes the text in `A` and `X` and a line end at once and returns zero. -/
def puts (c : Call) : Answer :=
  match textAt c.memory c.registers.ax none with
  | .error reason => c.refuse .puts reason
  | .ok text => c.writeAndReturn .stdout (text ++ [Ascii.byte '\n']) fun _ => 0

/-- `putchar` writes the byte in `A` and returns it. -/
def putchar (c : Call) : Answer :=
  let b := c.registers.a
  c.writeAndReturn .stdout [b] fun _ => b.toUInt16

/-- `getchar` reads a byte and returns it, or `-1` at the end of the script. -/
def getchar (c : Call) : Answer :=
  match c.console.consume c.step with
  | (some b, console) =>
    let counters := { c.counters with bytesRead := c.counters.bytesRead + 1 }
    { c with console, counters }.goBackWith b.toUInt16
  | (none, console) => { c with console }.goBackWith minusOne

/-- `exit` ends the run with the low byte of its argument. -/
def exit (c : Call) : Answer :=
  (.ok (.exit c.registers.a.toNat), c)

end Bench65.Call
