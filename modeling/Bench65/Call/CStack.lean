import Bench65.Memory
import Bench65.Violation

/-!
# The C stack

Compiled C code keeps a stack of its own: a pointer in the zero page, growing downwards through
memory, with arguments as little-endian words. Fixed arguments are popped by the callee.

A variadic caller pushes every argument and passes their byte count in `Y`; the callee finds the
first one highest, reads downwards, and in the end removes the whole frame whatever it read.
-/

namespace Bench65

/-- The C stack, known by the zero-page address of its pointer. -/
structure CStack where
  /-- Where the stack pointer is kept. -/
  pointerCell : UInt8
  deriving DecidableEq, Repr, Inhabited

namespace CStack

/-- The stack pointer. -/
def pointer (s : CStack) (m : Memory) : UInt16 :=
  m.readWord s.pointerCell.toUInt16

/-- The memory with another stack pointer. -/
def setPointer (s : CStack) (m : Memory) (p : UInt16) : Memory :=
  m.writeWord s.pointerCell.toUInt16 p

/-- Pops a word. -/
def pop (s : CStack) (m : Memory) : UInt16 × Memory :=
  let p := s.pointer m
  (m.readWord p, s.setPointer m (p + 2))

/-- Pushes a word. -/
def push (s : CStack) (m : Memory) (w : UInt16) : Memory :=
  let p := s.pointer m - 2
  s.setPointer (m.writeWord p w) p

/-- Discards some bytes. -/
def drop (s : CStack) (m : Memory) (count : UInt16) : Memory :=
  s.setPointer m (s.pointer m + count)

end CStack

/-- The arguments of a variadic call. -/
structure VariadicFrame where
  /-- The lowest address of the arguments. -/
  base : UInt16
  /-- The bytes supplied. -/
  supplied : UInt8
  /-- The bytes not read yet. -/
  left : UInt8
  deriving DecidableEq, Repr

namespace VariadicFrame

/-- The frame of a call with `y` argument bytes. The count must be even and cover the fixed
arguments. -/
def ofCall (s : CStack) (m : Memory) (y fixed : UInt8) : Except Violation.Reason VariadicFrame :=
  if y % 2 ≠ 0 then .error (.oddByteCount y)
  else if y < fixed then .error (.missingFixedArguments y fixed)
  else .ok ⟨s.pointer m, y, y⟩

/-- The address of the next argument of some size, and the frame behind it. Nothing is taken if
not enough bytes are left. -/
def take (f : VariadicFrame) (size : UInt8) : Except Violation.Reason (UInt16 × VariadicFrame) :=
  if f.left < size then
    .error (.argumentsExhausted size.toNat f.left.toNat f.supplied.toNat)
  else
    -- the first argument is the highest, so what is left lies below the one taken
    let left := f.left - size
    .ok (f.base + left.toUInt16, { f with left })

/-- The next argument of one word. -/
def nextWord (f : VariadicFrame) (m : Memory) : Except Violation.Reason (UInt16 × VariadicFrame) :=
  (f.take 2).map fun (a, f) => (m.readWord a, f)

/-- The next argument of two words, the low one first. -/
def nextLong (f : VariadicFrame) (m : Memory) : Except Violation.Reason (UInt32 × VariadicFrame) :=
  (f.take 4).map fun (a, f) =>
    ((m.readWord a).toUInt32 + 0x10000 * (m.readWord (a + 2)).toUInt32, f)

/-- Removes the frame from the C stack. -/
def close (f : VariadicFrame) (s : CStack) (m : Memory) : Memory :=
  s.setPointer m (f.base + f.supplied.toUInt16)

end VariadicFrame

end Bench65
