import Bench65.LoadError
import Bench65.Word

/-!
# Memory

The 64 KiB address space: 256 pages of 256 cells, each holding a byte. Every address is backed and
addresses wrap around, so reading and writing never fail. Words are stored low byte first.

The view of a memory is the function `Memory.read`: two memories with the same reads are equal
(`Memory.ext_read`), and a write changes the reading at its own address only
(`Memory.read_write`). All other operations are built from these two.
-/

namespace Bench65

/-- A page of 256 cells. -/
abbrev Page := Vector UInt8 256

/-- The 64 KiB address space. -/
structure Memory where
  /-- The pages, by number. -/
  pages : Vector Page 256

namespace Memory

/-- The memory whose cells all hold one byte. -/
def filled (fill : UInt8) : Memory :=
  ⟨Vector.replicate 256 (Vector.replicate 256 fill)⟩

instance : Inhabited Memory := ⟨filled 0⟩

/-- The byte at an address. -/
def read (m : Memory) (a : UInt16) : UInt8 :=
  have : (highByte a).toNat < 256 := (highByte a).toNat_lt
  have : (lowByte a).toNat < 256 := (lowByte a).toNat_lt
  m.pages[(highByte a).toNat][(lowByte a).toNat]

/-- A page of zeros, which stands in for a page while one of its cells is replaced. -/
def blankPage : Page :=
  Vector.replicate 256 0

/-- The memory with one cell replaced. The page is taken out of the table while it changes, so
that a memory held only once is changed in place. -/
def write (m : Memory) (a : UInt16) (b : UInt8) : Memory :=
  have : (highByte a).toNat < 256 := (highByte a).toNat_lt
  have : (lowByte a).toNat < 256 := (lowByte a).toNat_lt
  let (page, others) := m.pages.swapAt (highByte a).toNat blankPage
  ⟨others.set (highByte a).toNat (page.set (lowByte a).toNat b)⟩

/-! ### Words -/

/-- The word at an address, its high byte from the next address. -/
def readWord (m : Memory) (a : UInt16) : UInt16 :=
  word (m.read a) (m.read (a + 1))

/-- The memory with a word stored at an address, low byte first. -/
def writeWord (m : Memory) (a : UInt16) (w : UInt16) : Memory :=
  (m.write a (lowByte w)).write (a + 1) (highByte w)

/-! ### Runs of bytes -/

/-- The bytes at `count` consecutive addresses. -/
def readBytes (m : Memory) (a : UInt16) (count : Nat) : List UInt8 :=
  (List.range count).map fun i => m.read (a + UInt16.ofNat i)

/-- The memory with bytes stored at consecutive addresses. -/
def writeBytes (m : Memory) (a : UInt16) : List UInt8 → Memory
  | [] => m
  | b :: bs => (m.write a b).writeBytes (a + 1) bs

/-- Stores a program's bytes from `a` on; they must not run past the last address. -/
def load (a : UInt16) (bytes : List UInt8) : EStateM LoadError Memory Unit := do
  if 0x10000 < a.toNat + bytes.length then
    throw (.imageOutOfBounds a bytes.length 0 0x10000)
  modify (·.writeBytes a bytes)

/-- The bytes from `a` up to a zero byte, which must come within `limit` bytes; `found` holds
those already passed, last first. -/
def zeroTerminatedFrom (m : Memory) (a : UInt16) (found : List UInt8) :
    (limit : Nat) → Option (List UInt8)
  | 0 => none
  | limit + 1 =>
    let b := m.read a
    if b = 0 then some found.reverse else m.zeroTerminatedFrom (a + 1) (b :: found) limit

/-- The bytes of the zero-terminated text at `a`, or `none` if no zero comes within `limit`
bytes. -/
def text? (m : Memory) (a : UInt16) (limit : Nat) : Option (List UInt8) :=
  m.zeroTerminatedFrom a [] limit

/-! ### Reading after writing -/

theorem eq_of_bytes_eq {a b : UInt16} (hl : lowByte a = lowByte b) (hh : highByte a = highByte b) :
    a = b := by
  rw [← word_lowByte_highByte a, ← word_lowByte_highByte b, hl, hh]

/-- A write is seen at its own address and nowhere else. -/
theorem read_write (m : Memory) (a c : UInt16) (b : UInt8) :
    (m.write a b).read c = if a = c then b else m.read c := by
  simp only [write, read]
  by_cases h : a = c
  · subst h
    simp [Vector.swapAt]
  · rw [if_neg h]
    by_cases hh : (highByte a).toNat = (highByte c).toNat
    · have hl : (lowByte a).toNat ≠ (lowByte c).toNat := fun hl =>
        h (eq_of_bytes_eq (UInt8.toNat_inj.1 hl) (UInt8.toNat_inj.1 hh))
      simp [Vector.swapAt, -toNat_highByte, -toNat_lowByte, hh, hl]
    · simp [Vector.swapAt, -toNat_highByte, -toNat_lowByte, Array.getElem_set, hh]

@[simp]
theorem read_write_self (m : Memory) (a : UInt16) (b : UInt8) : (m.write a b).read a = b := by
  rw [read_write, if_pos rfl]

theorem read_write_of_ne (m : Memory) {a c : UInt16} (b : UInt8) (h : a ≠ c) :
    (m.write a b).read c = m.read c := by
  rw [read_write, if_neg h]

@[simp]
theorem read_filled (fill : UInt8) (a : UInt16) : (filled fill).read a = fill := by
  simp [filled, read]

/-- A memory is determined by what is read from it. -/
theorem ext_read {m n : Memory} (h : ∀ a, m.read a = n.read a) : m = n := by
  obtain ⟨ps⟩ := m
  obtain ⟨qs⟩ := n
  congr 1
  apply Vector.ext
  intro i hi
  apply Vector.ext
  intro j hj
  have hij := h (word (UInt8.ofNat j) (UInt8.ofNat i))
  simpa [read, Nat.mod_eq_of_lt hi, Nat.mod_eq_of_lt hj] using hij

end Memory

end Bench65
