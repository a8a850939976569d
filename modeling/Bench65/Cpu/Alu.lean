import Bench65.Variant
import Bench65.Cpu.Status

/-!
# The arithmetic unit

The operations that combine two bytes, or shift one, and set flags from what comes out. Addition
and subtraction have a binary and a decimal form, chosen by the decimal flag; only the decimal
form differs between the variants, and only in its flags: the 6502 takes Z from the binary sum and
N and V from the sum before its last correction, the 65C02 takes N and Z from the corrected result.

Subtraction is addition of the complement in binary, so its flags need no rule of their own;
decimal subtraction keeps those binary flags.
-/

namespace Bench65.Alu

/-- An operation of the unit. -/
inductive Operation where
  | adc | sbc | cmp
  | and | ora | eor
  | asl | lsr | rol | ror
  deriving DecidableEq, Repr

/-- The three groups of operations. -/
inductive Family where
  /-- Addition, subtraction, comparison. -/
  | arithmetic
  /-- The bitwise combinations. -/
  | logic
  /-- Shifts and rotations by one bit. -/
  | shift
  deriving DecidableEq, Repr

/-- The group an operation belongs to. -/
def Operation.family : Operation → Family
  | adc | sbc | cmp => .arithmetic
  | and | ora | eor => .logic
  | asl | lsr | rol | ror => .shift

/-- What an operation leaves: a byte and the status register. -/
structure Result where
  /-- The byte that comes out. -/
  value : UInt8
  /-- The status register afterwards. -/
  status : Status
  deriving DecidableEq, Repr

/-! ### Addition and subtraction -/

/-- Binary addition of two bytes and the carry. Overflow is set when both operands have the
same sign and the result has the other. -/
def addBinary (p : Status) (a b : UInt8) : Result :=
  let sum := a.toNat + b.toNat + p.carryBit
  let r := UInt8.ofNat sum
  let overflow := isNegative a == isNegative b && isNegative a != isNegative r
  ⟨r, ((p.set Status.carry (sum > 255)).set Status.overflow overflow).setNZ r⟩

/-- Binary subtraction with borrow: addition of the complement. -/
def subtractBinary (p : Status) (a b : UInt8) : Result :=
  addBinary p a (~~~b)

/-- Decimal addition, digit by digit: a digit sum above nine is corrected by six and carries. -/
def addDecimal (variant : Variant) (p : Status) (a b : UInt8) : Result :=
  -- the 6502 takes Z from here
  let binary := UInt8.ofNat (a.toNat + b.toNat + p.carryBit)
  let lowSum := a.toNat % 16 + b.toNat % 16 + p.carryBit
  let low := if lowSum > 9 then lowSum + 6 else lowSum
  let highSum := a.toNat / 16 + b.toNat / 16 + (if low > 15 then 1 else 0)
  -- N and V look at the high digit before its own correction
  let intermediate := UInt8.ofNat (highSum * 16)
  let overflow := isNegative a == isNegative b && isNegative a != isNegative intermediate
  let high := if highSum > 9 then highSum + 6 else highSum
  let r := UInt8.ofNat (high * 16 + low % 16)
  let q := (((p.set Status.zero (binary == 0)).set Status.negative
    (isNegative intermediate)).set Status.overflow overflow).set Status.carry (high > 15)
  ⟨r, if variant.isCmos then q.setNZ r else q⟩

/-- Decimal subtraction, digit by digit: a negative digit is corrected by six and borrows. The
flags are those of the binary subtraction, except that the 65C02 sets N and Z from the result. -/
def subtractDecimal (variant : Variant) (p : Status) (a b : UInt8) : Result :=
  let lowDiff : Int := (a.toNat % 16 : Nat) - (b.toNat % 16 : Nat) - (1 - p.carryBit : Nat)
  let low := if lowDiff < 0 then lowDiff - 6 else lowDiff
  let highDiff : Int := (a.toNat / 16 : Nat) - (b.toNat / 16 : Nat) - (if lowDiff < 0 then 1 else 0)
  let high := if highDiff < 0 then highDiff - 6 else highDiff
  -- the remainders are never negative, so that a borrow wraps around
  let r := UInt8.ofNat ((high * 16 + low % 16) % 256).toNat
  let q := (subtractBinary p a b).status
  ⟨r, if variant.isCmos then q.setNZ r else q⟩

/-- Comparison: carry says that no borrow is needed; the difference itself sets N and Z. -/
def compare (p : Status) (a b : UInt8) : Result :=
  ⟨a - b, (p.set Status.carry (b ≤ a)).setNZ (a - b)⟩

/-- The arithmetic operations; any other leaves `a` and the flags as they are. -/
def arithmetic (variant : Variant) (op : Operation) (p : Status) (a b : UInt8) : Result :=
  match op with
  | .adc => if p.get Status.decimal then addDecimal variant p a b else addBinary p a b
  | .sbc => if p.get Status.decimal then subtractDecimal variant p a b else subtractBinary p a b
  | .cmp => compare p a b
  | _ => ⟨a, p⟩

/-! ### Bitwise operations -/

/-- A byte as the result, with N and Z set from it. -/
def withNZ (p : Status) (value : UInt8) : Result :=
  ⟨value, p.setNZ value⟩

/-- The bitwise operations; any other leaves `a` and the flags as they are. -/
def logic (op : Operation) (p : Status) (a b : UInt8) : Result :=
  match op with
  | .and => withNZ p (a &&& b)
  | .ora => withNZ p (a ||| b)
  | .eor => withNZ p (a ^^^ b)
  | _ => ⟨a, p⟩

/-- `BIT`: Z from the common bits; N and V are bits 7 and 6 of the memory byte, except that the
immediate form leaves them alone. -/
def bitTest (p : Status) (a m : UInt8) (immediate : Bool) : Status :=
  let q := p.set Status.zero (a &&& m == 0)
  if immediate then q
  else (q.set Status.negative (isNegative m)).set Status.overflow (m &&& 0x40 != 0)

/-- `TRB`: Z from the common bits; the memory byte loses the bits of the accumulator. -/
def testAndReset (p : Status) (a m : UInt8) : Result :=
  ⟨m &&& ~~~a, p.set Status.zero (a &&& m == 0)⟩

/-- `TSB`: Z from the common bits; the memory byte gains the bits of the accumulator. -/
def testAndSet (p : Status) (a m : UInt8) : Result :=
  ⟨m ||| a, p.set Status.zero (a &&& m == 0)⟩

/-! ### Shifts -/

/-- A shifted byte as the result, with carry from the bit that left it. -/
def shifted (p : Status) (value : UInt8) (carryOut : Bool) : Result :=
  ⟨value, (p.set Status.carry carryOut).setNZ value⟩

/-- Shifts and rotations by one bit; any other operation leaves `a` and the flags as they are. -/
def shift (op : Operation) (p : Status) (a : UInt8) : Result :=
  let carryIn := p.carryBit
  let lowBit := a &&& 1 != 0
  match op with
  | .asl => shifted p (UInt8.ofNat (2 * a.toNat)) (isNegative a)
  | .lsr => shifted p (UInt8.ofNat (a.toNat / 2)) lowBit
  | .rol => shifted p (UInt8.ofNat (2 * a.toNat + carryIn)) (isNegative a)
  | .ror => shifted p (UInt8.ofNat (a.toNat / 2 + 128 * carryIn)) lowBit
  | _ => ⟨a, p⟩

/-! ### All operations -/

/-- An operation as its group performs it; an operation of another group changes nothing. -/
def Family.execute (family : Family) (variant : Variant) (op : Operation) (p : Status)
    (a b : UInt8) : Result :=
  match family with
  | .arithmetic => Alu.arithmetic variant op p a b
  | .logic => Alu.logic op p a b
  | .shift => Alu.shift op p a

/-- Performs an operation on two bytes; the shifts ignore the second. -/
def execute (variant : Variant) (op : Operation) (p : Status) (a b : UInt8) : Result :=
  op.family.execute variant op p a b

end Bench65.Alu
