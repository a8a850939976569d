/-!
# Numerals

The digits of a natural number in any base, most significant first, without leading zeros (zero
itself has the one digit `0`), and the ASCII characters that write them. Every number the library
prints, in messages, listings or formatted output, goes through `Numeral.digits` or through core's
decimal text.

`length_digits_pos` and `digits_lt` say that a numeral is never empty and holds digits of the base
only; `value_digits` says that reading it back gives the number.
-/

namespace Bench65.Numeral

/-- The digits of `n`, put in front of those already found. The fuel bounds the number of
digits; `n` itself is always enough, since each step divides by at least two. -/
def digitsFrom (base : Nat) : (fuel : Nat) → Nat → List Nat → List Nat
  | 0, n, found => n :: found
  | fuel + 1, n, found =>
    if base < 2 ∨ n < base then n :: found
    else digitsFrom base fuel (n / base) (n % base :: found)

/-- The digits of `n` in `base`, most significant first. -/
def digits (base n : Nat) : List Nat :=
  digitsFrom base n n []

/-- The number that a list of digits denotes, most significant digit first. -/
def value (base : Nat) (ds : List Nat) : Nat :=
  ds.foldl (fun n d => base * n + d) 0

/-- The ASCII character of a digit: `0`-`9`, then letters of the chosen case. -/
def digitByte (upper : Bool) (d : Nat) : UInt8 :=
  UInt8.ofNat (if d < 10 then 48 + d else if upper then 55 + d else 87 + d)

/-- The numeral of `n` in `base` as ASCII bytes. -/
def bytes (upper : Bool) (base n : Nat) : List UInt8 :=
  (digits base n).map (digitByte upper)

/-- The numeral of `n` in `base` as characters. -/
def chars (upper : Bool) (base n : Nat) : List Char :=
  (bytes upper base n).map (Char.ofNat ·.toNat)

/-! ### What the digits are -/

theorem digitsFrom_eq_append (base fuel n : Nat) (found : List Nat) :
    digitsFrom base fuel n found = digitsFrom base fuel n [] ++ found := by
  induction fuel generalizing n found with
  | zero => rfl
  | succ fuel ih =>
    unfold digitsFrom
    split
    · rfl
    · rw [ih, ih (n / base) [n % base], List.append_assoc]
      rfl

theorem length_digits_pos (base n : Nat) : 0 < (digits base n).length := by
  unfold digits
  cases n with
  | zero => simp [digitsFrom]
  | succ n =>
    unfold digitsFrom
    split
    · simp
    · rw [digitsFrom_eq_append]
      simp

theorem digits_lt {base n : Nat} (hb : 2 ≤ base) : ∀ d ∈ digits base n, d < base := by
  suffices h : ∀ fuel n, n ≤ fuel → ∀ d ∈ digitsFrom base fuel n [], d < base from
    h n n (Nat.le_refl n)
  intro fuel
  induction fuel with
  | zero =>
    intro n hn d hd
    simp only [digitsFrom, List.mem_singleton] at hd
    omega
  | succ fuel ih =>
    intro n hn d hd
    unfold digitsFrom at hd
    split at hd
    · simp only [List.mem_singleton] at hd
      omega
    · rw [digitsFrom_eq_append, List.mem_append, List.mem_singleton] at hd
      rcases hd with hd | rfl
      · have hlt : n / base < n := Nat.div_lt_self (by omega) (by omega)
        exact ih (n / base) (by omega) d hd
      · exact Nat.mod_lt _ (by omega)

theorem value_append_singleton (base : Nat) (ds : List Nat) (d : Nat) :
    value base (ds ++ [d]) = base * value base ds + d := by
  simp [value]

theorem value_digits (base n : Nat) : value base (digits base n) = n := by
  suffices h : ∀ fuel n, value base (digitsFrom base fuel n []) = n from h n n
  intro fuel
  induction fuel with
  | zero => intro n; simp [digitsFrom, value]
  | succ fuel ih =>
    intro n
    unfold digitsFrom
    split
    · simp [value]
    · rw [digitsFrom_eq_append, value_append_singleton, ih, Nat.div_add_mod]

end Bench65.Numeral
