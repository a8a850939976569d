/-!
# Reading numbers

Addresses, budgets and counts given as text: an optional plus sign and one or more digits, within
a limit. Zeros in front do not matter.
-/

namespace Bench65.Number

/-- The value of a digit in a base of at most 16. -/
def digitValue? (base : Nat) (c : Char) : Option Nat :=
  let value :=
    if '0' ≤ c ∧ c ≤ '9' then c.toNat - '0'.toNat
    else if 'a' ≤ c ∧ c ≤ 'f' then c.toNat - 'a'.toNat + 10
    else if 'A' ≤ c ∧ c ≤ 'F' then c.toNat - 'A'.toNat + 10
    else base
  if value < base then some value else none

/-- Reads digits to the end, after a number already read; a digit that leads past the limit is
refused. -/
def readDigits (base limit : Nat) (n : Nat) : List Char → Option Nat
  | [] => some n
  | c :: rest =>
    match digitValue? base c with
    | some d =>
      let n := base * n + d
      if n ≤ limit then readDigits base limit n rest else none
    | none => none

/-- The text without one plus sign in front. -/
def dropPlus : List Char → List Char
  | '+' :: rest => rest
  | s => s

/-- The number that a whole text denotes, if it is one and not above the limit. -/
def read? (base limit : Nat) (s : List Char) : Option Nat :=
  match dropPlus s with
  | [] => none
  | digits => readDigits base limit 0 digits

end Bench65.Number
