/-!
# Bytes and words

The machine moves bytes (`UInt8`) and addresses its memory with words (`UInt16`). A word is two
bytes, the low one first wherever the two are stored. The functions here take words apart and put
them together by arithmetic, never by shifting, so that their values as natural numbers are
read off directly (`toNat_word`, `toNat_lowByte`, `toNat_highByte`) and each pair of inverses
follows.
-/

namespace Bench65

/-- The word whose low and high bytes are given. -/
def word (low high : UInt8) : UInt16 :=
  low.toUInt16 + 256 * high.toUInt16

/-- The low byte of a word: its remainder modulo 256. -/
def lowByte (w : UInt16) : UInt8 :=
  w.toUInt8

/-- The high byte of a word, which is also the number of the page the address lies on. -/
def highByte (w : UInt16) : UInt8 :=
  (w / 256).toUInt8

/-- Two addresses lie on different pages. -/
def crossesPage (a b : UInt16) : Bool :=
  highByte a != highByte b

/-- Bit 7 of a byte, its sign when the byte is read as a signed number. -/
def isNegative (b : UInt8) : Bool :=
  0x80 ≤ b

/-- The word with the same signed value as the byte: branch displacements are read this way. -/
def signExtend (b : UInt8) : UInt16 :=
  if isNegative b then b.toUInt16 + 0xFF00 else b.toUInt16

/-- The signed value of a word in two's complement, from `-32768` to `32767`. -/
def signedWord (w : UInt16) : Int :=
  if w < 0x8000 then w.toNat else (w.toNat : Int) - 0x10000

/-- The signed value of a byte in two's complement, from `-128` to `127`. -/
def signedByte (b : UInt8) : Int :=
  if isNegative b then (b.toNat : Int) - 0x100 else b.toNat

/-- The signed value of a double word in two's complement. -/
def signedLong (n : UInt32) : Int :=
  if n < 0x80000000 then n.toNat else (n.toNat : Int) - 0x100000000

/-! ### Values as natural numbers -/

@[simp]
theorem toNat_word (low high : UInt8) : (word low high).toNat = low.toNat + 256 * high.toNat := by
  have hl := low.toNat_lt
  have hh := high.toNat_lt
  simp only [word, UInt16.toNat_add, UInt16.toNat_mul, UInt8.toNat_toUInt16, UInt16.reduceToNat]
  omega

@[simp]
theorem toNat_lowByte (w : UInt16) : (lowByte w).toNat = w.toNat % 256 := by
  simp [lowByte]

@[simp]
theorem toNat_highByte (w : UInt16) : (highByte w).toNat = w.toNat / 256 := by
  have hw := w.toNat_lt
  simp only [highByte, UInt16.toNat_toUInt8, UInt16.toNat_div, UInt16.reduceToNat]
  omega

@[simp]
theorem lowByte_word (low high : UInt8) : lowByte (word low high) = low := by
  apply UInt8.toNat_inj.1
  have hl := low.toNat_lt
  rw [toNat_lowByte, toNat_word]
  omega

@[simp]
theorem highByte_word (low high : UInt8) : highByte (word low high) = high := by
  apply UInt8.toNat_inj.1
  have hl := low.toNat_lt
  rw [toNat_highByte, toNat_word]
  omega

@[simp]
theorem word_lowByte_highByte (w : UInt16) : word (lowByte w) (highByte w) = w := by
  apply UInt16.toNat_inj.1
  rw [toNat_word, toNat_lowByte, toNat_highByte]
  omega

/-! ### Signed values -/

theorem signedWord_lt (w : UInt16) : signedWord w < 0x8000 := by
  have hw := w.toNat_lt
  unfold signedWord
  split
  case isTrue hlt =>
    have hlt' : w.toNat < 0x8000 := UInt16.lt_iff_toNat_lt.mp hlt
    omega
  case isFalse => omega

/-- A word below `0x8000` is not negative. -/
theorem signedWord_of_toNat_lt {w : UInt16} (h : w.toNat < 0x8000) : signedWord w = w.toNat := by
  have hlt : w < 0x8000 := UInt16.lt_iff_toNat_lt.mpr h
  rw [signedWord, if_pos hlt]

end Bench65
