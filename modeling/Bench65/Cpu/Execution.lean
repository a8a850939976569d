import Bench65.Cpu.Alu
import Bench65.Cpu.Effect

/-!
# Executing one instruction

The effect of every operation on its resolved operand. The operations come in groups that share
one shape: combining the accumulator with memory, comparing, changing a cell in place, loading,
storing, moving between registers, pushing and pulling, setting flags, branching and jumping.
`Instruction.effect` resolves the operand, moves the program counter past the instruction, performs
the operation and adds the cycle for an index that crosses a page.
-/

namespace Bench65

namespace Mnemonic

/-- Whether a branch is taken; any other operation counts as an unconditional one. -/
def branchTaken (mnemonic : Mnemonic) (p : Status) : Bool :=
  match mnemonic with
  | bcc => !p.get Status.carry
  | bcs => p.get Status.carry
  | bne => !p.get Status.zero
  | beq => p.get Status.zero
  | bpl => !p.get Status.negative
  | bmi => p.get Status.negative
  | bvc => !p.get Status.overflow
  | bvs => p.get Status.overflow
  | _ => true

end Mnemonic

namespace Effect

/-! ### Groups of operations -/

/-- The accumulator combined with a byte. -/
def combine (variant : Variant) (op : Alu.Operation) (r : Registers) (value : UInt8) : Effect :=
  let result := Alu.execute variant op r.p r.a value
  of { r with a := result.value, p := result.status }

/-- A register compared with a byte. -/
def compare (r : Registers) (register value : UInt8) : Effect :=
  of { r with p := (Alu.compare r.p register value).status }

/-- An operand replaced by what an operation makes of it. -/
def replace (r : Registers) (operand : Operand) (result : Alu.Result) : Effect :=
  (of { r with p := result.status }).assign operand result.value

/-- A byte that arrives in the accumulator, setting N and Z. -/
def loadA (r : Registers) (value : UInt8) : Effect :=
  of { r with a := value, p := r.p.setNZ value }

/-- A byte that arrives in X, setting N and Z. -/
def loadX (r : Registers) (value : UInt8) : Effect :=
  of { r with x := value, p := r.p.setNZ value }

/-- A byte that arrives in Y, setting N and Z. -/
def loadY (r : Registers) (value : UInt8) : Effect :=
  of { r with y := value, p := r.p.setNZ value }

/-- A byte written to an operand, without effect on the flags. -/
def storeTo (r : Registers) (operand : Operand) (value : UInt8) : Effect :=
  (of r).assign operand value

/-- One flag set or cleared. -/
def flag (r : Registers) (mask : UInt8) (on : Bool) : Effect :=
  of { r with p := r.p.set mask on }

/-- Continuing at the operand's address. -/
def jump (r : Registers) : Operand → Effect
  | .address a _ => of { r with pc := a }
  | _ => of r

/-- Continuing at the operand's address, with the address of the last byte of the call pushed. -/
def call (r : Registers) : Operand → Effect
  | .address a _ =>
    let e := (of r).pushWord (r.pc - 1)
    { e with registers := { e.registers with pc := a } }
  | _ => of r

/-- A branch: when taken it costs a cycle, which the base count of `BRA` already has, and another
one if the target lies on a page other than the next instruction's. -/
def branch (mnemonic : Mnemonic) (r : Registers) (operand : Operand) : Effect :=
  match mnemonic.branchTaken r.p, operand with
  | true, .address a crossed =>
    let taken := if mnemonic = .bra then 0 else 1
    { of { r with pc := a } with extraCycles := taken + (if crossed then 1 else 0) }
  | _, _ => of r

/-! ### All operations -/

/-- The effect of an operation on a resolved operand. The program counter in `r` is already past
the instruction; `start` is where the instruction stands. -/
def perform (variant : Variant) (i : Instruction) (start : UInt16) (operand : Operand)
    (r : Registers) (m : Memory) : Effect :=
  match i.mnemonic with
  | .adc => combine variant .adc r (operand.read r m)
  | .sbc => combine variant .sbc r (operand.read r m)
  | .and => combine variant .and r (operand.read r m)
  | .ora => combine variant .ora r (operand.read r m)
  | .eor => combine variant .eor r (operand.read r m)
  | .cmp => compare r r.a (operand.read r m)
  | .cpx => compare r r.x (operand.read r m)
  | .cpy => compare r r.y (operand.read r m)
  | .asl => replace r operand (Alu.shift .asl r.p (operand.read r m))
  | .lsr => replace r operand (Alu.shift .lsr r.p (operand.read r m))
  | .rol => replace r operand (Alu.shift .rol r.p (operand.read r m))
  | .ror => replace r operand (Alu.shift .ror r.p (operand.read r m))
  | .inc => replace r operand (Alu.withNZ r.p (operand.read r m + 1))
  | .dec => replace r operand (Alu.withNZ r.p (operand.read r m - 1))
  | .trb => replace r operand (Alu.testAndReset r.p r.a (operand.read r m))
  | .tsb => replace r operand (Alu.testAndSet r.p r.a (operand.read r m))
  | .bit =>
    of { r with p := Alu.bitTest r.p r.a (operand.read r m) (i.mode = .immediate) }
  | .lda => loadA r (operand.read r m)
  | .ldx => loadX r (operand.read r m)
  | .ldy => loadY r (operand.read r m)
  | .sta => storeTo r operand r.a
  | .stx => storeTo r operand r.x
  | .sty => storeTo r operand r.y
  | .stz => storeTo r operand 0
  | .inx => loadX r (r.x + 1)
  | .iny => loadY r (r.y + 1)
  | .dex => loadX r (r.x - 1)
  | .dey => loadY r (r.y - 1)
  | .tax => loadX r r.a
  | .tay => loadY r r.a
  | .txa => loadA r r.x
  | .tya => loadA r r.y
  | .tsx => loadX r r.s
  | .txs => of { r with s := r.x }
  | .pha => (of r).push r.a
  | .phx => (of r).push r.x
  | .phy => (of r).push r.y
  | .php => (of r).push r.p.toStack
  | .pla => let (b, r) := r.pull m; loadA r b
  | .plx => let (b, r) := r.pull m; loadX r b
  | .ply => let (b, r) := r.pull m; loadY r b
  | .plp => let (b, r) := r.pull m; of { r with p := Status.ofStack b }
  | .clc => flag r Status.carry false
  | .cld => flag r Status.decimal false
  | .cli => flag r Status.interrupt false
  | .clv => flag r Status.overflow false
  | .sec => flag r Status.carry true
  | .sed => flag r Status.decimal true
  | .sei => flag r Status.interrupt true
  | .bcc | .bcs | .beq | .bne | .bmi | .bpl | .bvc | .bvs | .bra => branch i.mnemonic r operand
  | .jmp => jump r operand
  | .jsr => call r operand
  | .rts => of (r.returnFromSubroutine m)
  | .rti => of (r.returnFromInterrupt m)
  -- what `BRK` pushes counts from the instruction, not from what is behind it
  | .brk => softwareInterrupt variant r m start
  | .nop => of r

end Effect

namespace Instruction

/-- The effect of the instruction at `r.pc`. -/
def effect (variant : Variant) (i : Instruction) (r : Registers) (m : Memory) : Effect :=
  let operand := Operand.resolve variant i.mode r m
  let e := Effect.perform variant i r.pc operand { r with pc := r.pc + UInt16.ofNat i.length } m
  if i.mnemonic.paysPagePenalty && operand.crossed then
    { e with extraCycles := e.extraCycles + 1 }
  else e

end Instruction

end Bench65
