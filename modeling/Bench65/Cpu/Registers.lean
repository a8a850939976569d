import Bench65.Text.Hex
import Bench65.Cpu.Status

/-!
# Registers

The registers a program sees. Calls by the C convention pass a word in the pair `A`, `X`.
-/

namespace Bench65

/-- The registers of the processor. -/
structure Registers where
  /-- The accumulator. -/
  a : UInt8
  /-- The X index. -/
  x : UInt8
  /-- The Y index. -/
  y : UInt8
  /-- The stack pointer, an offset into page 1. -/
  s : UInt8
  /-- The program counter. -/
  pc : UInt16
  /-- The status register. -/
  p : Status
  deriving DecidableEq, Repr, Inhabited

namespace Registers

/-- The registers at power-on: execution starts at `pc` with interrupts masked. -/
def initial (pc : UInt16) (s : UInt8) : Registers :=
  ⟨0, 0, 0, s, pc, Status.ofBits Status.interrupt⟩

/-- The word in `A` (low byte) and `X` (high byte). -/
def ax (r : Registers) : UInt16 :=
  word r.a r.x

/-- The registers with a word placed in `A` (low byte) and `X` (high byte). -/
def setAX (r : Registers) (w : UInt16) : Registers :=
  { r with a := lowByte w, x := highByte w }

/-- The registers in one line. -/
def display (r : Registers) : String :=
  s!"PC=${Hex.wordUpper r.pc} A=${Hex.byteUpper r.a} X=${Hex.byteUpper r.x} " ++
  s!"Y=${Hex.byteUpper r.y} S=${Hex.byteUpper r.s} P={r.p.display}"

@[simp]
theorem ax_setAX (r : Registers) (w : UInt16) : (r.setAX w).ax = w :=
  word_lowByte_highByte w

end Registers

end Bench65
