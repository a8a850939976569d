import Bench65.Word
import Bench65.Text.Hex
import Bench65.Instruction.Table

/-!
# Disassembly

The assembler text of one instruction, for listings and traces: the mnemonic, then the operand in
the notation of its addressing mode with as many hexadecimal digits as it has operand digits. A
branch shows the address it leads to, not its displacement. Bytes that are no complete
instruction are shown as `.byte`.
-/

namespace Bench65

namespace AddressingMode

/-- The operand as an assembler writes it, with the blank before it, or `none` when operand bytes
are missing. Bytes past the operand do not matter. -/
def operandText (mode : AddressingMode) (pc : UInt16) (operand : List UInt8) : Option String :=
  match mode, operand with
  | implied, _ => some ""
  | accumulator, _ => some " a"
  | immediate, b :: _ => some (" #$" ++ Hex.byte b)
  | zeroPage, b :: _ => some (" $" ++ Hex.byte b)
  | zeroPageX, b :: _ => some (" $" ++ Hex.byte b ++ ",x")
  | zeroPageY, b :: _ => some (" $" ++ Hex.byte b ++ ",y")
  | indexedIndirect, b :: _ => some (" ($" ++ Hex.byte b ++ ",x)")
  | indirectIndexed, b :: _ => some (" ($" ++ Hex.byte b ++ "),y")
  | zeroPageIndirect, b :: _ => some (" ($" ++ Hex.byte b ++ ")")
  | relative, b :: _ => some (" $" ++ Hex.word (pc + 2 + signExtend b))
  | absolute, l :: h :: _ => some (" $" ++ Hex.word (word l h))
  | absoluteX, l :: h :: _ => some (" $" ++ Hex.word (word l h) ++ ",x")
  | absoluteY, l :: h :: _ => some (" $" ++ Hex.word (word l h) ++ ",y")
  | indirect, l :: h :: _ => some (" ($" ++ Hex.word (word l h) ++ ")")
  | absoluteIndexedIndirect, l :: h :: _ => some (" ($" ++ Hex.word (word l h) ++ ",x)")
  | _, _ => none

end AddressingMode

/-- The text for a byte that starts no complete instruction. -/
def dataByteText (b : UInt8) : String :=
  ".byte $" ++ Hex.byte b

/-- The text of the instruction that the bytes start with, standing at `pc`. -/
def disassemble (variant : Variant) (bytes : List UInt8) (pc : UInt16) : String :=
  match bytes with
  | [] => ".byte"
  | opcode :: operand =>
    let text := do
      let i ← Instruction.decode variant opcode
      let operandText ← i.mode.operandText pc operand
      some (i.mnemonic.name ++ operandText)
    text.getD (dataByteText opcode)

end Bench65
