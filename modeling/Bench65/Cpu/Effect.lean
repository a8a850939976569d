import Bench65.Cpu.Operand

/-!
# Effects

What one instruction does: the registers it leaves, the bytes it stores, in order, and the cycles
it takes beyond its base count. No instruction reads a cell that it has stored to before, so an
effect is computed from the memory before the instruction and applied afterwards
(`Memory.apply`); which cells an instruction writes can then be read off its effect.

The hardware stack is page 1, addressed by `S` and growing downwards, around the page's end.
-/

namespace Bench65

/-- One byte stored at one address. -/
structure Store where
  /-- Where. -/
  address : UInt16
  /-- What. -/
  value : UInt8
  deriving DecidableEq, Repr

/-- The memory after some stores, in order. -/
def Memory.apply (m : Memory) (stores : List Store) : Memory :=
  stores.foldl (fun m s => m.write s.address s.value) m

/-- What an instruction does. -/
structure Effect where
  /-- The registers afterwards. -/
  registers : Registers
  /-- The bytes stored, first store first. -/
  stores : List Store
  /-- Cycles beyond the base count. -/
  extraCycles : Nat
  deriving DecidableEq, Repr

namespace Effect

/-- An effect on registers alone. -/
def of (r : Registers) : Effect :=
  ⟨r, [], 0⟩

/-- The effect with a byte stored last. -/
def store (e : Effect) (a : UInt16) (b : UInt8) : Effect :=
  { e with stores := e.stores ++ [⟨a, b⟩] }

/-- The effect with a byte written to an operand: to the accumulator or to memory. Other operands
cannot be written. -/
def assign (e : Effect) (operand : Operand) (b : UInt8) : Effect :=
  match operand with
  | .accumulator => { e with registers := { e.registers with a := b } }
  | .address a _ => e.store a b
  | .none | .immediate _ => e

end Effect

/-! ### The hardware stack -/

/-- The cell of page 1 that a stack pointer denotes. -/
def stackCell (s : UInt8) : UInt16 :=
  0x0100 + s.toUInt16

namespace Effect

/-- Pushes a byte: stores it at the stack pointer and moves the pointer down. -/
def push (e : Effect) (b : UInt8) : Effect :=
  let s := e.registers.s
  { e.store (stackCell s) b with registers := { e.registers with s := s - 1 } }

/-- Pushes a word, high byte first. -/
def pushWord (e : Effect) (w : UInt16) : Effect :=
  (e.push (highByte w)).push (lowByte w)

end Effect

namespace Registers

/-- Pulls a byte: moves the stack pointer up and reads there. -/
def pull (r : Registers) (m : Memory) : UInt8 × Registers :=
  let s := r.s + 1
  (m.read (stackCell s), { r with s })

/-- Pulls a word, low byte first. -/
def pullWord (r : Registers) (m : Memory) : UInt16 × Registers :=
  let (low, r) := r.pull m
  let (high, r) := r.pull m
  (word low high, r)

/-- Returns from a subroutine: execution continues after the byte whose address was pushed. -/
def returnFromSubroutine (r : Registers) (m : Memory) : Registers :=
  let (address, r) := r.pullWord m
  { r with pc := address + 1 }

/-- Returns from an interrupt: the status register, then the address to continue at. -/
def returnFromInterrupt (r : Registers) (m : Memory) : Registers :=
  let (p, r) := r.pull m
  let (address, r) := r.pullWord m
  { r with p := Status.ofStack p, pc := address }

end Registers

/-! ### Interrupts -/

/-- Where the processor finds the address of its interrupt handler. -/
def interruptVector : UInt16 := 0xFFFE

/-- The software interrupt of a `BRK` at `pc`: pushes the address two bytes on and the status
register with its break bit, masks interrupts, and continues at the handler. The 65C02 leaves
decimal mode too. The vector lies outside page 1, so the pushes do not change it. -/
def Effect.softwareInterrupt (variant : Variant) (r : Registers) (m : Memory) (pc : UInt16) :
    Effect :=
  let e := ((of r).pushWord (pc + 2)).push r.p.toStack
  -- the byte pushed is still the one from before
  let masked := r.p.set Status.interrupt true
  let p := if variant.isCmos then masked.set Status.decimal false else masked
  { e with registers := { e.registers with p, pc := m.readWord interruptVector } }

end Bench65
