/-!
# Mnemonics

The operations of the instruction set by their assembler names: the 56 of the 6502 and the eight
that the 65C02 adds. Two properties of an operation matter for its cost: whether it pays one more
cycle when indexing leaves the page, and whether it is a relative branch.
-/

namespace Bench65

/-- The operation of an instruction. -/
inductive Mnemonic where
  | adc | and | asl | bcc | bcs | beq | bit | bmi | bne | bpl | brk | bvc | bvs | clc | cld | cli
  | clv | cmp | cpx | cpy | dec | dex | dey | eor | inc | inx | iny | jmp | jsr | lda | ldx | ldy
  | lsr | nop | ora | pha | php | pla | plp | rol | ror | rti | rts | sbc | sec | sed | sei | sta
  | stx | sty | tax | tay | tsx | txa | txs | tya
  | bra | phx | phy | plx | ply | stz | trb | tsb
  deriving DecidableEq, Repr

namespace Mnemonic

/-- The assembler name, in small letters. -/
def name : Mnemonic → String
  | adc => "adc" | and => "and" | asl => "asl" | bcc => "bcc" | bcs => "bcs" | beq => "beq"
  | bit => "bit" | bmi => "bmi" | bne => "bne" | bpl => "bpl" | brk => "brk" | bvc => "bvc"
  | bvs => "bvs" | clc => "clc" | cld => "cld" | cli => "cli" | clv => "clv" | cmp => "cmp"
  | cpx => "cpx" | cpy => "cpy" | dec => "dec" | dex => "dex" | dey => "dey" | eor => "eor"
  | inc => "inc" | inx => "inx" | iny => "iny" | jmp => "jmp" | jsr => "jsr" | lda => "lda"
  | ldx => "ldx" | ldy => "ldy" | lsr => "lsr" | nop => "nop" | ora => "ora" | pha => "pha"
  | php => "php" | pla => "pla" | plp => "plp" | rol => "rol" | ror => "ror" | rti => "rti"
  | rts => "rts" | sbc => "sbc" | sec => "sec" | sed => "sed" | sei => "sei" | sta => "sta"
  | stx => "stx" | sty => "sty" | tax => "tax" | tay => "tay" | tsx => "tsx" | txa => "txa"
  | txs => "txs" | tya => "tya" | bra => "bra" | phx => "phx" | phy => "phy" | plx => "plx"
  | ply => "ply" | stz => "stz" | trb => "trb" | tsb => "tsb"

/-- Operations that only read their operand: they take one more cycle when indexing leads to
another page than the unindexed address. -/
def paysPagePenalty : Mnemonic → Bool
  | adc | and | bit | cmp | eor | lda | ldx | ldy | ora | sbc => true
  | _ => false

/-- Relative branches, conditional or not. -/
def isBranch : Mnemonic → Bool
  | bcc | bcs | beq | bmi | bne | bpl | bvc | bvs | bra => true
  | _ => false

end Mnemonic

end Bench65
