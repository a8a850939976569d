/-!
# The layout of a loaded program

Once a program is loaded the address space falls into regions: the zero page and the stack page
first, the host hooks and processor vectors last, the program and its argument block where the
loader put them, and free memory between.
-/

namespace Bench65

/-- A named part of the address space. -/
inductive Region where
  /-- `$0000-$00FF`. -/
  | zeroPage
  /-- `$0100-$01FF`. -/
  | stack
  /-- Loaded code and data. -/
  | program
  /-- Everything the loader left alone. -/
  | free
  /-- The argument block. -/
  | arguments
  /-- The host hooks and the processor vectors above the argument block. -/
  | hooks
  deriving DecidableEq, Repr

namespace Layout

/-- The first address of the stack page. -/
def stackBase : UInt16 := 0x0100

/-- The first address a program may occupy. -/
def programFloor : UInt16 := 0x0200

/-- The usual top of the argument block, one past its last address. -/
def defaultArgumentTop : UInt16 := 0xFFF0

end Layout

/-- Where a loaded program and its arguments lie. -/
structure Layout where
  /-- The first address of the program. -/
  programStart : UInt16
  /-- One past the last address of the program, at most `$10000`. -/
  programEnd : Nat
  /-- The first address of the argument block. -/
  argumentStart : UInt16
  /-- One past the last address of the argument block. -/
  argumentTop : UInt16
  deriving DecidableEq, Repr

namespace Layout

/-- The layout of a memory without program and arguments. -/
def empty : Layout :=
  ⟨programFloor, programFloor.toNat, defaultArgumentTop, defaultArgumentTop⟩

instance : Inhabited Layout := ⟨empty⟩

/-- The region an address belongs to. The fixed pages come first, then what lies above the
arguments, the arguments and the program; the rest is free. -/
def regionOf (l : Layout) (a : UInt16) : Region :=
  if a < stackBase then .zeroPage
  else if a < programFloor then .stack
  else if l.argumentTop ≤ a then .hooks
  else if l.argumentStart ≤ a then .arguments
  else if l.programStart ≤ a ∧ a.toNat < l.programEnd then .program
  else .free

end Layout

end Bench65
