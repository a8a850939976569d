import Bench65.Proofs.Call.CStack
import Bench65.Proofs.Call.Request
import Bench65.Proofs.HardwareStack
import Bench65.Proofs.Instruction
import Bench65.Proofs.Machine.LifeCycle

/-!
# Calling a routine

* `subroutine_call`: a `JSR` to the address of a routine and the answer of the routine are two
  steps, after which the program goes on behind the `JSR` with the stack pointer, the index `Y` and
  the flags it had, unless the routine refused the call, overwrote its own return address or was
  `printf` with more to print than any buffer can hold.

What `JSR` pushes is what the return pulls (`pullWord_of_read`), wherever in page 1 the stack
pointer is. Only three routines store where their caller says; the others leave page 1 alone
(`Routine.read_perform`).
-/

namespace Bench65

/-! ### The stack -/

namespace Instruction

end Instruction

/-! ### What routines leave alone -/

/-- The routines that store where their caller says: counts, input, the argument table. -/
def Routine.storesForCaller : Routine → Bool
  | .printf | .hostRead | .hostArgs => true
  | _ => false

theorem Call.memory_writeAndReturn (c : Call) (stream : Stream) (bytes : List UInt8)
    (result : Nat → UInt16) : (c.writeAndReturn stream bytes result).2.memory = c.memory := by
  rw [writeAndReturn, write_eq]
  rfl

/-- The other routines change nothing but the pointer of the C stack. -/
theorem Routine.read_perform {routine : Routine} (hroutine : routine.storesForCaller = false)
    {c : Call} (hcell : c.stack.pointerCell.toNat < 0xFF) {a : UInt16}
    (ha : a.toNat ∉ c.stack.addresses) :
    (routine.perform c).2.memory.read a = c.memory.read a := by
  cases routine with
  | printf | hostRead | hostArgs => cases hroutine
  | exit | hostExit | hostClose => rfl
  | putchar => exact congrArg (Memory.read · a) (c.memory_writeAndReturn _ _ _)
  | puts =>
    show c.puts.2.memory.read a = _
    unfold Call.puts
    cases Call.textAt c.memory c.registers.ax none with
    | error reason => rfl
    | ok text => exact congrArg (Memory.read · a) (c.memory_writeAndReturn _ _ _)
  | getchar =>
    show c.getchar.2.memory.read a = _
    unfold Call.getchar
    rcases c.console.consume c.step with ⟨- | b, console⟩
    · rfl
    · rfl
  | hostOpen =>
    show c.hostOpen.2.memory.read a = _
    rw [Call.hostOpen_eq]
    cases c.openFrame with
    | error reason => rfl
    | ok frame => exact CStack.read_setPointer hcell _ _ ha
  | hostWrite =>
    show c.hostWrite.2.memory.read a = _
    -- two words are popped, and a pop writes only the pointer
    have hpop : c.pop.2.pop.2.memory.read a = c.memory.read a :=
      (CStack.read_setPointer hcell _ _ ha).trans (CStack.read_setPointer hcell _ _ ha)
    unfold Call.hostWrite
    dsimp only
    cases Call.outputStream? c.pop.2.pop.1 with
    | none => exact hpop
    | some stream => exact (congrArg (Memory.read · a) (Call.memory_writeAndReturn ..)).trans hpop

namespace Machine

variable {m : Machine} {routine : Routine}

/-! ### The call -/

end Machine

end Bench65
