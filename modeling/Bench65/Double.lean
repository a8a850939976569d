/-!
# Double precision

Positive numbers as a double holds them: with 53 significant bits, a tie going to the even
neighbour. A number is a ratio of natural numbers and everything is exact arithmetic on them, so
that `Double.round` is rounding itself and no float is involved. There is no least exponent here;
the greatest one is a test, `Double.isFinite`.
-/

namespace Bench65.Double

/-- The quotient rounded to the nearest natural number, a tie to the even one. -/
def roundDiv (n d : Nat) : Nat :=
  let q := n / d
  let twice := 2 * (n % d)
  if twice < d ∨ (twice = d ∧ q % 2 = 0) then q else q + 1

/-- The number of bits of a number. -/
def bitLength (n : Nat) : Nat :=
  if n = 0 then 0 else n.log2 + 1

/-- A ratio of natural numbers. -/
structure Ratio where
  /-- The numerator. -/
  num : Nat
  /-- The denominator. -/
  den : Nat
  deriving Repr

/-- The nearest ratio with 53 significant bits. The ratio is scaled by a power of two until its
whole part has 53 bits, rounded there, and scaled back. -/
def round (r : Ratio) : Ratio :=
  if r.num = 0 ∨ r.den = 0 then ⟨0, 1⟩ else
    let up := 53 + bitLength r.den - bitLength r.num
    let down := bitLength r.num - (53 + bitLength r.den)
    let num := r.num <<< up
    let den := r.den <<< down
    -- the scaled quotient has 53 or 54 bits; of 54 the last is rounded off
    if num / den < 1 <<< 53 then ⟨roundDiv num den <<< down, 1 <<< up⟩
    else ⟨roundDiv num (2 * den) <<< (down + 1), 1 <<< up⟩

/-- A natural number in double precision. -/
def ofNat (n : Nat) : Ratio :=
  round ⟨n, 1⟩

/-- The product of two numbers in double precision. -/
def multiply (a b : Ratio) : Ratio :=
  round ⟨a.num * b.num, a.den * b.den⟩

/-- The quotient of two numbers in double precision. -/
def divide (a b : Ratio) : Ratio :=
  round ⟨a.num * b.den, a.den * b.num⟩

/-- Whether a rounded number is one that a double can hold, and not infinity. -/
def isFinite (r : Ratio) : Bool :=
  r.num < r.den <<< 1024

end Bench65.Double
