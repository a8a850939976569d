import Bench65.Memory
import Bench65.Instruction.Table
import Bench65.Cpu.Registers

/-!
# Operands

Finding the operand of an instruction: the addressing mode, the bytes after the opcode, the index
registers and memory give a value or an address. Two details distinguish the modes. Zero-page
arithmetic stays in the zero page. Indexing a full address may lead to another page, which is
noted because it costs a cycle.
-/

namespace Bench65

/-- What an instruction works on. -/
inductive Operand where
  /-- Nothing. -/
  | none
  /-- The accumulator. -/
  | accumulator
  /-- A byte from the instruction itself. -/
  | immediate (value : UInt8)
  /-- A cell of memory, or the target of a jump or branch. -/
  | address (address : UInt16) (crossed : Bool)
  deriving DecidableEq, Repr

namespace Operand

/-- An operand at a fixed address. -/
def fixed (a : UInt16) : Operand :=
  address a false

/-- An operand at an address counted from a base, which may cross a page on the way. -/
def offset (base a : UInt16) : Operand :=
  address a (crossesPage base a)

/-- The word at a zero-page address; the high byte of the pointer at `$FF` is at `$00`. -/
def zeroPageWord (m : Memory) (z : UInt8) : UInt16 :=
  word (m.read z.toUInt16) (m.read (z + 1).toUInt16)

/-- The word at an address as the 6502 reads a jump pointer: both bytes come from one page. -/
def wordWithinPage (m : Memory) (a : UInt16) : UInt16 :=
  word (m.read a) (m.read (word (lowByte a + 1) (highByte a)))

/-- The operand of an instruction at `r.pc` in the given mode. -/
def resolve (variant : Variant) (mode : AddressingMode) (r : Registers) (m : Memory) : Operand :=
  let argument := r.pc + 1
  match mode with
  | .implied => none
  | .accumulator => accumulator
  | .immediate => immediate (m.read argument)
  | .zeroPage => fixed (m.read argument).toUInt16
  -- the index is added to the byte, so that the sum stays in the zero page
  | .zeroPageX => fixed (m.read argument + r.x).toUInt16
  | .zeroPageY => fixed (m.read argument + r.y).toUInt16
  | .absolute => fixed (m.readWord argument)
  | .absoluteX => let base := m.readWord argument; offset base (base + r.x.toUInt16)
  | .absoluteY => let base := m.readWord argument; offset base (base + r.y.toUInt16)
  | .indirect =>
    let pointer := m.readWord argument
    -- the 6502 does not carry into the page of the pointer
    fixed (if variant.isCmos then m.readWord pointer else wordWithinPage m pointer)
  | .indexedIndirect => fixed (zeroPageWord m (m.read argument + r.x))
  | .indirectIndexed =>
    let base := zeroPageWord m (m.read argument)
    offset base (base + r.y.toUInt16)
  | .zeroPageIndirect => fixed (zeroPageWord m (m.read argument))
  | .absoluteIndexedIndirect => fixed (m.readWord (m.readWord argument + r.x.toUInt16))
  | .relative =>
    -- the distance counts from the instruction behind the branch
    let next := r.pc + 2
    offset next (next + signExtend (m.read argument))

/-- Whether finding the operand led to another page. -/
def crossed : Operand → Bool
  | address _ c => c
  | _ => false

/-- The byte an operand denotes; no operand reads as zero. -/
def read (operand : Operand) (r : Registers) (m : Memory) : UInt8 :=
  match operand with
  | none => 0
  | accumulator => r.a
  | immediate v => v
  | address a _ => m.read a

end Operand

end Bench65
