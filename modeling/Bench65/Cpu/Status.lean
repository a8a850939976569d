import Bench65.Word

/-!
# The status register

Seven of the eight bits of `P` matter: six flags that instructions set and test, and bit 4, which
exists only in the copies of `P` on the stack. Bit 5 has no meaning and reads as one. Flags are
addressed by the mask of their bit, so that several can be read or changed together.
-/

namespace Bench65

/-- The processor status register. -/
structure Status where
  /-- The stored bits; bit 5 is forced to one only when they are read. -/
  raw : UInt8
  deriving DecidableEq, Repr

namespace Status

/-! ### Flags -/

/-- Carry, bit 0. -/
def carry : UInt8 := 0x01

/-- Zero, bit 1. -/
def zero : UInt8 := 0x02

/-- Interrupts masked, bit 2. -/
def interrupt : UInt8 := 0x04

/-- Decimal arithmetic, bit 3. -/
def decimal : UInt8 := 0x08

/-- Break, bit 4: set only in copies pushed by `PHP` and `BRK`. -/
def breakBit : UInt8 := 0x10

/-- The unused bit 5, which reads as one. -/
def unused : UInt8 := 0x20

/-- Signed overflow, bit 6. -/
def overflow : UInt8 := 0x40

/-- Negative, bit 7. -/
def negative : UInt8 := 0x80

/-! ### Reading and changing flags -/

/-- The register with no bit stored. -/
def clear : Status := ⟨0⟩

instance : Inhabited Status := ⟨clear⟩

/-- The register that stores the given bits, and bit 5. -/
def ofBits (b : UInt8) : Status := ⟨b ||| unused⟩

/-- The register as a byte, bit 5 set. -/
def bits (p : Status) : UInt8 := p.raw ||| unused

/-- Whether every bit of `mask` is stored as one. -/
def get (p : Status) (mask : UInt8) : Bool := p.raw &&& mask == mask

/-- The register with every bit of `mask` set or cleared. -/
def set (p : Status) (mask : UInt8) (on : Bool) : Status :=
  if on then ⟨p.raw ||| mask⟩ else ⟨p.raw &&& ~~~mask⟩

/-- Zero and negative set from a result byte. -/
def setNZ (p : Status) (value : UInt8) : Status :=
  (p.set zero (value == 0)).set negative (isNegative value)

/-- The carry flag as a number. -/
def carryBit (p : Status) : Nat := if p.get carry then 1 else 0

/-! ### Copies on the stack -/

/-- The copy of the register that `PHP` and `BRK` push: bits 4 and 5 set. -/
def toStack (p : Status) : UInt8 := p.raw ||| (breakBit ||| unused)

/-- The register that `PLP` and `RTI` restore from a byte: bit 4 dropped, bit 5 set. -/
def ofStack (b : UInt8) : Status := ⟨b &&& ~~~breakBit ||| unused⟩

/-! ### Display -/

/-- The letters of the bits, from bit 7 down to bit 0. -/
def letters : List (UInt8 × Char × Char) :=
  [(negative, 'N', 'n'), (overflow, 'V', 'v'), (unused, '-', '-'), (breakBit, 'B', 'b'),
   (decimal, 'D', 'd'), (interrupt, 'I', 'i'), (zero, 'Z', 'z'), (carry, 'C', 'c')]

/-- The register as text: one letter per bit, a capital where the bit is set. -/
def display (p : Status) : String :=
  String.ofList (letters.map fun (mask, on, off) => if p.bits &&& mask != 0 then on else off)

end Status

end Bench65
