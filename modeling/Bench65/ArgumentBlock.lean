import Bench65.LoadError
import Bench65.Memory

/-!
# Argument blocks

The arguments of a program as it finds them in memory, just below a given address: their count, a
table of pointers closed by a null pointer, and the texts the pointers lead to, each closed by a
zero byte. The block is a list of bytes (`ArgumentBlock.bytes`), written as one run; reading it
back follows the pointers.
-/

namespace Bench65

/-- Where an argument block lies. -/
structure ArgumentBlock where
  /-- The number of arguments, the program's name included. -/
  count : UInt16
  /-- The first address of the block, where the count is stored. -/
  start : UInt16
  /-- One past the last address of the block. -/
  stop : UInt16
  deriving DecidableEq, Repr, Inhabited

namespace ArgumentBlock

/-- The address of the stored count. -/
def countAddress (b : ArgumentBlock) : UInt16 :=
  b.start

/-- The address of the pointer table. -/
def tableAddress (b : ArgumentBlock) : UInt16 :=
  b.start + 2

/-! ### Writing -/

/-- The bytes of the count and of the pointer table with its null pointer. -/
def headerSize (args : List (List UInt8)) : Nat :=
  2 + 2 * (args.length + 1)

/-- The number of bytes the arguments take. -/
def size (args : List (List UInt8)) : Nat :=
  headerSize args + (args.map (·.length + 1)).foldr (· + ·) 0

/-- The addresses of the texts, when the first one is at `a`. -/
def textAddresses (a : UInt16) : List (List UInt8) → List UInt16
  | [] => []
  | arg :: rest => a :: textAddresses (a + UInt16.ofNat (arg.length + 1)) rest

/-- A word as two bytes. -/
def wordBytes (w : UInt16) : List UInt8 :=
  [lowByte w, highByte w]

/-- The bytes of a block that starts at an address. -/
def bytes (start : UInt16) (args : List (List UInt8)) : List UInt8 :=
  wordBytes (UInt16.ofNat args.length) ++
  (textAddresses (start + UInt16.ofNat (headerSize args)) args).flatMap wordBytes ++
  wordBytes 0 ++
  args.flatMap (· ++ [0])

/-- Writes the arguments so that their block ends at `top` and does not reach below `floor`. An
argument with a zero byte is refused first, then a block that is too large. -/
def serialize (args : List (List UInt8)) (top : UInt16) (floor : Nat) :
    EStateM LoadError Memory ArgumentBlock := do
  if let some index := args.findIdx? (·.contains 0) then throw (.interiorNul index)
  let needed := size args
  let available := top.toNat - floor
  if available < needed then throw (.argumentsTooLarge needed available top)
  let start := top - UInt16.ofNat needed
  modify (·.writeBytes start (bytes start args))
  pure ⟨UInt16.ofNat args.length, start, top⟩

/-! ### Reading -/

/-- The text a pointer leads to, which must end inside the block; otherwise it reads as empty. -/
def textAt (b : ArgumentBlock) (m : Memory) (pointer : UInt16) : List UInt8 :=
  (m.text? pointer (b.stop - pointer).toNat).getD []

/-- The arguments found in memory: as many as the stored count says, fewer if a null pointer
comes first. -/
def readBack (b : ArgumentBlock) (m : Memory) : List (List UInt8) :=
  let count := m.readWord b.countAddress
  let pointers := (List.range count.toNat).map fun i =>
    m.readWord (b.tableAddress + 2 * UInt16.ofNat i)
  (pointers.takeWhile (· ≠ 0)).map (b.textAt m)

end ArgumentBlock

end Bench65
