import Bench65.Variant
import Bench65.Instruction.Mnemonic
import Bench65.Instruction.AddressingMode

/-!
# The opcode table

An instruction is an operation in an addressing mode; an opcode byte stands for at most one. The
instructions are listed operation by operation (`nmosInstructions`, `cmosAdditions`) and looked up
through a table of 256 entries, so that decoding (`Instruction.decode`) is one array access. An
opcode without an entry is illegal on that variant.
-/

namespace Bench65

/-- One entry of the opcode table. -/
structure Instruction where
  /-- The byte that stands for the instruction in memory. -/
  opcode : UInt8
  /-- What it does. -/
  mnemonic : Mnemonic
  /-- How its operand is found. -/
  mode : AddressingMode
  /-- Cycles it takes before the penalties for crossing a page or taking a branch. -/
  cycles : Nat
  deriving DecidableEq, Repr

namespace Instruction

/-- The number of bytes the instruction occupies. -/
def length (i : Instruction) : Nat :=
  1 + i.mode.operandLength

/-! ### The instructions -/

/-- The forms of one operation: mode, opcode and base cycles of each. -/
def forms (mnemonic : Mnemonic) (rows : List (AddressingMode × UInt8 × Nat)) :
    List Instruction :=
  rows.map fun (mode, opcode, cycles) => ⟨opcode, mnemonic, mode, cycles⟩

/-- The eight forms shared by the operations that combine the accumulator with memory. The
opcodes of these forms differ only in a common base. -/
def accumulatorForms (mnemonic : Mnemonic) (base : UInt8) : List Instruction :=
  forms mnemonic [
    (.immediate, base + 0x08, 2), (.zeroPage, base + 0x04, 3), (.zeroPageX, base + 0x14, 4),
    (.absolute, base + 0x0C, 4), (.absoluteX, base + 0x1C, 4), (.absoluteY, base + 0x18, 4),
    (.indexedIndirect, base, 6), (.indirectIndexed, base + 0x10, 5)]

/-- The four memory forms of the operations that read a cell, change it and write it back. -/
def memoryForms (mnemonic : Mnemonic) (base : UInt8) : List Instruction :=
  forms mnemonic [
    (.zeroPage, base + 0x04, 5), (.zeroPageX, base + 0x14, 6), (.absolute, base + 0x0C, 6),
    (.absoluteX, base + 0x1C, 7)]

/-- One instruction without operand. -/
def bare (mnemonic : Mnemonic) (opcode : UInt8) (cycles : Nat) : Instruction :=
  ⟨opcode, mnemonic, .implied, cycles⟩

/-- One conditional branch. -/
def branch (mnemonic : Mnemonic) (opcode : UInt8) : Instruction :=
  ⟨opcode, mnemonic, .relative, 2⟩

/-- The 151 documented instructions of the 6502. -/
def nmosInstructions : List Instruction :=
  accumulatorForms .ora 0x01 ++ accumulatorForms .and 0x21 ++ accumulatorForms .eor 0x41 ++
  accumulatorForms .adc 0x61 ++ accumulatorForms .lda 0xA1 ++ accumulatorForms .cmp 0xC1 ++
  accumulatorForms .sbc 0xE1 ++
  forms .sta [
    (.zeroPage, 0x85, 3), (.zeroPageX, 0x95, 4), (.absolute, 0x8D, 4), (.absoluteX, 0x9D, 5),
    (.absoluteY, 0x99, 5), (.indexedIndirect, 0x81, 6), (.indirectIndexed, 0x91, 6)] ++
  memoryForms .asl 0x02 ++ memoryForms .rol 0x22 ++ memoryForms .lsr 0x42 ++
  memoryForms .ror 0x62 ++ memoryForms .dec 0xC2 ++ memoryForms .inc 0xE2 ++
  [⟨0x0A, .asl, .accumulator, 2⟩, ⟨0x2A, .rol, .accumulator, 2⟩,
   ⟨0x4A, .lsr, .accumulator, 2⟩, ⟨0x6A, .ror, .accumulator, 2⟩] ++
  forms .bit [(.zeroPage, 0x24, 3), (.absolute, 0x2C, 4)] ++
  forms .cpx [(.immediate, 0xE0, 2), (.zeroPage, 0xE4, 3), (.absolute, 0xEC, 4)] ++
  forms .cpy [(.immediate, 0xC0, 2), (.zeroPage, 0xC4, 3), (.absolute, 0xCC, 4)] ++
  forms .ldx [
    (.immediate, 0xA2, 2), (.zeroPage, 0xA6, 3), (.zeroPageY, 0xB6, 4), (.absolute, 0xAE, 4),
    (.absoluteY, 0xBE, 4)] ++
  forms .ldy [
    (.immediate, 0xA0, 2), (.zeroPage, 0xA4, 3), (.zeroPageX, 0xB4, 4), (.absolute, 0xAC, 4),
    (.absoluteX, 0xBC, 4)] ++
  forms .stx [(.zeroPage, 0x86, 3), (.zeroPageY, 0x96, 4), (.absolute, 0x8E, 4)] ++
  forms .sty [(.zeroPage, 0x84, 3), (.zeroPageX, 0x94, 4), (.absolute, 0x8C, 4)] ++
  [branch .bcc 0x90, branch .bcs 0xB0, branch .beq 0xF0, branch .bmi 0x30, branch .bne 0xD0,
   branch .bpl 0x10, branch .bvc 0x50, branch .bvs 0x70] ++
  forms .jmp [(.absolute, 0x4C, 3), (.indirect, 0x6C, 5)] ++
  forms .jsr [(.absolute, 0x20, 6)] ++
  [bare .brk 0x00 7, bare .rti 0x40 6, bare .rts 0x60 6,
   bare .clc 0x18 2, bare .cld 0xD8 2, bare .cli 0x58 2, bare .clv 0xB8 2,
   bare .sec 0x38 2, bare .sed 0xF8 2, bare .sei 0x78 2,
   bare .dex 0xCA 2, bare .dey 0x88 2, bare .inx 0xE8 2, bare .iny 0xC8 2,
   bare .tax 0xAA 2, bare .tay 0xA8 2, bare .tsx 0xBA 2,
   bare .txa 0x8A 2, bare .txs 0x9A 2, bare .tya 0x98 2,
   bare .pha 0x48 3, bare .php 0x08 3, bare .pla 0x68 4, bare .plp 0x28 4,
   bare .nop 0xEA 2]

/-- The 27 instructions that only the 65C02 has. -/
def cmosAdditions : List Instruction :=
  [⟨0x80, .bra, .relative, 3⟩,
   bare .phx 0xDA 3, bare .phy 0x5A 3, bare .plx 0xFA 4, bare .ply 0x7A 4] ++
  forms .stz [
    (.zeroPage, 0x64, 3), (.zeroPageX, 0x74, 4), (.absolute, 0x9C, 4), (.absoluteX, 0x9E, 5)] ++
  forms .trb [(.zeroPage, 0x14, 5), (.absolute, 0x1C, 6)] ++
  forms .tsb [(.zeroPage, 0x04, 5), (.absolute, 0x0C, 6)] ++
  [⟨0x1A, .inc, .accumulator, 2⟩, ⟨0x3A, .dec, .accumulator, 2⟩,
   ⟨0x12, .ora, .zeroPageIndirect, 5⟩, ⟨0x32, .and, .zeroPageIndirect, 5⟩,
   ⟨0x52, .eor, .zeroPageIndirect, 5⟩, ⟨0x72, .adc, .zeroPageIndirect, 5⟩,
   ⟨0x92, .sta, .zeroPageIndirect, 5⟩, ⟨0xB2, .lda, .zeroPageIndirect, 5⟩,
   ⟨0xD2, .cmp, .zeroPageIndirect, 5⟩, ⟨0xF2, .sbc, .zeroPageIndirect, 5⟩] ++
  forms .bit [(.immediate, 0x89, 2), (.zeroPageX, 0x34, 4), (.absoluteX, 0x3C, 4)] ++
  forms .jmp [(.absoluteIndexedIndirect, 0x7C, 6)]

/-- The base cycles of a 6502 instruction on the 65C02: the jump through a pointer takes one
more, since there the pointer may straddle two pages. -/
def onCmos (i : Instruction) : Instruction :=
  if i.mode = .indirect then { i with cycles := i.cycles + 1 } else i

/-- All instructions of a variant. -/
def all : Variant → List Instruction
  | .nmos => nmosInstructions
  | .cmos => nmosInstructions.map onCmos ++ cmosAdditions

/-! ### Decoding -/

/-- The table that holds each listed instruction at its opcode. -/
def tabulate (instructions : List Instruction) : Vector (Option Instruction) 256 :=
  instructions.foldl (fun table i => table.set i.opcode.toNat (some i) i.opcode.toNat_lt)
    (Vector.replicate 256 none)

/-- The opcode table of the 6502. -/
def nmosTable : Vector (Option Instruction) 256 :=
  tabulate (all .nmos)

/-- The opcode table of the 65C02. -/
def cmosTable : Vector (Option Instruction) 256 :=
  tabulate (all .cmos)

/-- The opcode table of a variant. -/
def table : Variant → Vector (Option Instruction) 256
  | .nmos => nmosTable
  | .cmos => cmosTable

/-- The instruction an opcode stands for, or `none` if it is illegal on the variant. -/
def decode (variant : Variant) (opcode : UInt8) : Option Instruction :=
  have : opcode.toNat < 256 := opcode.toNat_lt
  (table variant)[opcode.toNat]

end Instruction

end Bench65
