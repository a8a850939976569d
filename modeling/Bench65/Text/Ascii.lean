/-!
# ASCII

Programs and files speak in bytes; formats and messages are written in characters. The two meet
in ASCII, where a byte is the code of its character.
-/

namespace Bench65.Ascii

/-- The character whose code is the byte. -/
def char (b : UInt8) : Char :=
  Char.ofNat b.toNat

/-- The byte that is the code of an ASCII character. -/
def byte (c : Char) : UInt8 :=
  UInt8.ofNat c.toNat

/-- The bytes of ASCII text. -/
def bytes (text : String) : List UInt8 :=
  text.toList.map byte

/-- Whether the byte is a character that prints, the blank included. -/
def isPrintable (b : UInt8) : Bool :=
  0x20 ≤ b && b ≤ 0x7E

/-- The value of a decimal digit. -/
def digitValue? (b : UInt8) : Option Nat :=
  if 0x30 ≤ b && b ≤ 0x39 then some (b.toNat - 0x30) else none

end Bench65.Ascii
