import Bench65.Double

/-!
# Rounded quotients

A ratio of two counts is reported in decimal with a fixed number of places. It is rounded twice:
first in double precision (`Double.divide`), then to decimal places. Both times a tie goes to the
even neighbour.
-/

namespace Bench65.Decimal

/-- A ratio with four decimal places. -/
def fourPlaces (r : Double.Ratio) : String :=
  let scaled := Double.roundDiv (r.num * 10000) r.den
  let places := toString (scaled % 10000)
  s!"{scaled / 10000}." ++ String.ofList (List.leftpad 4 '0' places.toList)

/-- The quotient of two counts to four decimal places; nothing per nothing is zero. -/
def perUnit (count units : Nat) : String :=
  fourPlaces (Double.divide (Double.ofNat count) (Double.ofNat units))

end Bench65.Decimal
