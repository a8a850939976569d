import Bench65.Text.Numeral

/-!
# Hexadecimal text

Addresses and bytes are written in hexadecimal: with small letters in listings, with capitals in
messages and register displays. `Hex.padded` is the general form, at least as many digits as
asked for; `Hex.byte` and `Hex.word` are the fixed forms of a byte (two digits) and of a word
(four).
-/

namespace Bench65.Hex

/-- The number in hexadecimal, filled with zeros on the left up to `width` digits. -/
def padded (upper : Bool) (width n : Nat) : String :=
  String.ofList ((Numeral.chars upper 16 n).leftpad width '0')

/-- A byte as two small digits. -/
def byte (b : UInt8) : String :=
  padded false 2 b.toNat

/-- A word as four small digits. -/
def word (w : UInt16) : String :=
  padded false 4 w.toNat

/-- A byte as two capital digits. -/
def byteUpper (b : UInt8) : String :=
  padded true 2 b.toNat

/-- A word as four capital digits. -/
def wordUpper (w : UInt16) : String :=
  padded true 4 w.toNat

end Bench65.Hex
