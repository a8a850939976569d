/-!
# Addressing modes

How an instruction names its operand. The mode alone fixes how many operand bytes follow the
opcode.
-/

namespace Bench65

/-- The way an instruction's operand is found. -/
inductive AddressingMode where
  /-- No operand. -/
  | implied
  /-- The accumulator, as in `asl a`. -/
  | accumulator
  /-- The operand byte itself, `#$nn`. -/
  | immediate
  /-- A zero-page address, `$nn`. -/
  | zeroPage
  /-- A zero-page address indexed by X, staying in the zero page: `$nn,x`. -/
  | zeroPageX
  /-- A zero-page address indexed by Y, staying in the zero page: `$nn,y`. -/
  | zeroPageY
  /-- A full address, `$nnnn`. -/
  | absolute
  /-- A full address indexed by X, `$nnnn,x`. -/
  | absoluteX
  /-- A full address indexed by Y, `$nnnn,y`. -/
  | absoluteY
  /-- Through a pointer anywhere in memory, `($nnnn)`. -/
  | indirect
  /-- Through a zero-page pointer found by X, `($nn,x)`. -/
  | indexedIndirect
  /-- Through a zero-page pointer, then indexed by Y: `($nn),y`. -/
  | indirectIndexed
  /-- A signed displacement from the next instruction. -/
  | relative
  /-- Through a zero-page pointer, `($nn)`; 65C02 only. -/
  | zeroPageIndirect
  /-- Through a pointer found by X, `($nnnn,x)`; 65C02 only. -/
  | absoluteIndexedIndirect
  deriving DecidableEq, Repr

namespace AddressingMode

/-- The number of operand bytes after the opcode. -/
def operandLength : AddressingMode → Nat
  | implied | accumulator => 0
  | immediate | zeroPage | zeroPageX | zeroPageY | indexedIndirect | indirectIndexed | relative
  | zeroPageIndirect => 1
  | absolute | absoluteX | absoluteY | indirect | absoluteIndexedIndirect => 2

end AddressingMode

end Bench65
