import Bench65.Printf
import Mathlib.Algebra.GroupWithZero.Nat
import Mathlib.Data.Nat.Digits.Defs

/-!
# Integer conversions by the C standard

An integer conversion specification is a percent sign, flags in any order and number, possibly a
field width, a precision and a length modifier, and one of `d`, `i`, `u`, `o`, `x` and `X`.
`Specification` is this syntax, `Specification.text` writes it, and `Specification.prescribed` is
what the C standard says it yields, from the numbers in its fields and the argument it converts.

The rules are those of the standard's text, one definition each, and do not go through the
renderer. They count digits with `Nat.digits`, in which zero has none: the default precision of one
then gives zero its single digit, and precision zero takes it away again.
-/

namespace Bench65.Printf.Standard

/-! ### Syntax -/

/-- A flag character. -/
inductive Flag where
  | minus
  | plus
  | space
  | hash
  | zero
  deriving DecidableEq, Repr

/-- A flag as it is written. -/
def Flag.byte : Flag → UInt8
  | minus => Ascii.byte '-'
  | plus => Ascii.byte '+'
  | space => Ascii.byte ' '
  | hash => Ascii.byte '#'
  | zero => Ascii.byte '0'

/-- A decimal number as it is written, from its digits, most significant first. -/
def numberText (ds : List (Fin 10)) : List UInt8 :=
  ds.map fun d => Ascii.byte (Nat.digitChar d.val)

/-- The value of a decimal number; no digits mean zero. -/
def numberValue (ds : List (Fin 10)) : Nat :=
  Nat.ofDigits 10 (ds.reverse.map Fin.val)

/-- A field width. No digits mean that there is none; a leading zero would be a flag. -/
inductive Width where
  | digits (ds : List (Fin 10)) (leading : ∀ d ∈ ds.head?, d.val ≠ 0)
  | star

/-- A precision. A point without digits is precision zero. -/
inductive Precision where
  | absent
  | digits (ds : List (Fin 10))
  | star

/-- A length modifier. -/
inductive Modifier where
  | absent
  | hh
  | h
  | l
  | j
  | z
  | t

/-- An integer conversion. -/
inductive Conversion where
  | d
  | i
  | u
  | o
  | x
  | X
  deriving DecidableEq, Repr

/-- A width as it is written. -/
def Width.text : Width → List UInt8
  | digits ds _ => numberText ds
  | star => [Ascii.byte '*']

/-- A precision as it is written. -/
def Precision.text : Precision → List UInt8
  | absent => []
  | digits ds => Ascii.byte '.' :: numberText ds
  | star => [Ascii.byte '.', Ascii.byte '*']

/-- A length modifier as it is written. -/
def Modifier.text : Modifier → List UInt8
  | absent => []
  | hh => [Ascii.byte 'h', Ascii.byte 'h']
  | h => [Ascii.byte 'h']
  | l => [Ascii.byte 'l']
  | j => [Ascii.byte 'j']
  | z => [Ascii.byte 'z']
  | t => [Ascii.byte 't']

/-- A conversion as it is written. -/
def Conversion.byte : Conversion → UInt8
  | d => Ascii.byte 'd'
  | i => Ascii.byte 'i'
  | u => Ascii.byte 'u'
  | o => Ascii.byte 'o'
  | x => Ascii.byte 'x'
  | X => Ascii.byte 'X'

/-- An integer conversion specification. -/
structure Specification where
  flags : List Flag
  width : Width
  precision : Precision
  modifier : Modifier
  conversion : Conversion

/-- A specification as it is written. -/
def Specification.text (c : Specification) : List UInt8 :=
  Ascii.byte '%' :: (c.flags.map Flag.byte ++ (c.width.text ++
    (c.precision.text ++ (c.modifier.text ++ [c.conversion.byte]))))

/-! ### Arguments

The data model: an `int`, like `short`, `size_t` and `ptrdiff_t`, has 16 bits, a `long`, like
`intmax_t`, has 32. A `char` is passed as an `int`. -/

section Arguments

variable {ε σ : Type} (source : Source ε σ)

/-- The number a width stands for. A star takes a signed `int`. -/
def Width.take : Width → Rendering ε σ Int
  | digits ds _ => pure (numberValue ds)
  | star => do
    let w ← fetch source.nextInt
    pure w.toInt16.toInt

/-- The number a precision stands for, if it is there. A star takes a signed `int`. -/
def Precision.take : Precision → Rendering ε σ (Option Int)
  | absent => pure none
  | digits ds => pure (some (numberValue ds))
  | star => do
    let p ← fetch source.nextInt
    pure (some p.toInt16.toInt)

/-- The bits of the type that a length modifier selects. -/
def Modifier.bits : Modifier → Nat
  | hh => 8
  | absent | h | z | t => 16
  | l | j => 32

/-- The argument passed for a conversion, as the unsigned number of its bits. -/
def Modifier.take (m : Modifier) : Rendering ε σ Nat :=
  if m.bits = 32 then do
    let n ← fetch source.nextLong
    pure n.toNat
  else do
    let n ← fetch source.nextInt
    pure n.toNat

end Arguments

/-! ### The rules -/

/-- The precision that counts: a negative one from a star is taken as if it were not there. -/
def givenPrecision (precision : Option Int) : Option Nat :=
  (precision.filter (0 ≤ ·)).map Int.toNat

/-- Whether a conversion shows a signed number. -/
def Conversion.isSigned : Conversion → Bool
  | d | i => true
  | u | o | x | X => false

/-- The base of a conversion. -/
def Conversion.base : Conversion → Nat
  | d | i | u => 10
  | o => 8
  | x | X => 16

/-- The character of a digit. -/
def Conversion.digit (c : Conversion) (d : Nat) : UInt8 :=
  let character := Nat.digitChar d
  Ascii.byte (if c = X then character.toUpper else character)

namespace Specification

variable (c : Specification)

/-- The value converted: the argument brought to the selected type. -/
def value (argument : Nat) : Int :=
  -- the remainder around zero is what the bits denote in two's complement
  let modulus := 2 ^ c.modifier.bits
  if c.conversion.isSigned then (argument : Int).bmod modulus else (argument % modulus : Nat)

/-- Whether the result is flush left: the `-` flag, or a negative width from a star, which counts
as a `-` flag before its absolute value. -/
def isLeft (width : Int) : Bool :=
  Flag.minus ∈ c.flags ∨ width < 0

/-- The significant digits, most significant first; zero has none. -/
def significant (v : Int) : List UInt8 :=
  (Nat.digits c.conversion.base v.natAbs).reverse.map c.conversion.digit

/-- The least number of digits: the precision, one by default. With `#` an octal conversion raises
it as far as needed for the first digit to be a zero. -/
def leastDigits (precision : Option Nat) (v : Int) : Nat :=
  let least := precision.getD 1
  if Flag.hash ∈ c.flags ∧ c.conversion = .o then max least ((c.significant v).length + 1)
  else least

/-- The digits, expanded with leading zeros. -/
def digits (precision : Option Nat) (v : Int) : List UInt8 :=
  (c.significant v).leftpad (c.leastDigits precision v) (Ascii.byte '0')

/-- What stands before the digits: the sign of a signed conversion, where `+` goes before a blank,
and with `#` the base of a hexadecimal number that is not zero. -/
def mark (v : Int) : List UInt8 :=
  match c.conversion with
  | .d | .i =>
    if v < 0 then [Ascii.byte '-']
    else if Flag.plus ∈ c.flags then [Ascii.byte '+']
    else if Flag.space ∈ c.flags then [Ascii.byte ' ']
    else []
  | .x => if Flag.hash ∈ c.flags ∧ v ≠ 0 then [Ascii.byte '0', Ascii.byte 'x'] else []
  | .X => if Flag.hash ∈ c.flags ∧ v ≠ 0 then [Ascii.byte '0', Ascii.byte 'X'] else []
  | .u | .o => []

/-- The result for the number of the width, that of the precision and the argument: the mark and
the digits, filled up to the width with blanks behind them, or else with zeros between the two if
`0` is given and no precision, or else with blanks in front. -/
def prescribed (width : Int) (precision : Option Int) (argument : Nat) : List UInt8 :=
  let v := c.value argument
  -- a negative precision lets zeros fill the field, as if there were none
  let precision := givenPrecision precision
  let mark := c.mark v
  let digits := c.digits precision v
  if c.isLeft width then (mark ++ digits).rightpad width.natAbs (Ascii.byte ' ')
  else if Flag.zero ∈ c.flags ∧ precision = none then
    mark ++ digits.leftpad (width.natAbs - mark.length) (Ascii.byte '0')
  else (mark ++ digits).leftpad width.natAbs (Ascii.byte ' ')

end Specification

end Bench65.Printf.Standard
