import Bench65.Text.Hex
import Bench65.Text.Number
import Mathlib.Algebra.GroupWithZero.Nat

/-!
# Reading hexadecimal back

A number written in hexadecimal, with any number of zeros in front and digits of either case, is
read back as itself (`readDigits_padded`). A byte fills its two digits and a word its four
(`length_byte`, `length_word`), so that no two bytes and no two words look the same (`byte_inj`,
`word_inj`).
-/

namespace Bench65

namespace Numeral

/-- The character of a digit. -/
def digitChar (upper : Bool) (d : Nat) : Char :=
  Char.ofNat (digitByte upper d).toNat

theorem foldl_digits_le (base : Nat) (hb : 0 < base) (ds : List Nat) (n : Nat) :
    n ≤ ds.foldl (fun n d => base * n + d) n := by
  induction ds generalizing n with
  | nil => exact Nat.le_refl n
  | cons d ds ih =>
    have hstep : n ≤ base * n + d := Nat.le_add_right_of_le (Nat.le_mul_of_pos_left n hb)
    exact Nat.le_trans hstep (ih (base * n + d))

theorem value_replicate_append (base k : Nat) (ds : List Nat) :
    value base (List.replicate k 0 ++ ds) = value base ds := by
  have hzero : (List.replicate k 0).foldl (fun n d => base * n + d) 0 = 0 := by
    induction k with
    | zero => rfl
    | succ k ih => simpa [List.replicate_succ] using ih
  unfold value
  rw [List.foldl_append, hzero]

/-- A number below a power of the base has no more digits than the power. -/
theorem length_digits_le {base n w : Nat} (hn : n < base ^ (w + 1)) :
    (digits base n).length ≤ w + 1 := by
  suffices h : ∀ fuel n w, n < base ^ (w + 1) → (digitsFrom base fuel n []).length ≤ w + 1 from
    h n n w hn
  intro fuel
  induction fuel with
  | zero =>
    intro n w _
    exact Nat.le_add_left 1 w
  | succ fuel ih =>
    intro n w hn
    unfold digitsFrom
    split
    · exact Nat.le_add_left 1 w
    · rename_i hbig
      -- there is another digit in front, so the power is not the first one
      obtain ⟨w, rfl⟩ : ∃ k, w = k + 1 := by
        cases w with
        | zero =>
          rw [Nat.zero_add, Nat.pow_one] at hn
          omega
        | succ w => exact ⟨w, rfl⟩
      have hdiv : n / base < base ^ (w + 1) := by
        rw [Nat.div_lt_iff_lt_mul (by omega), ← Nat.pow_succ]
        exact hn
      rw [digitsFrom_eq_append, List.length_append]
      exact Nat.succ_le_succ (ih (n / base) w hdiv)

end Numeral

namespace Number

open Numeral

theorem digitValue?_digitChar (upper : Bool) {d : Nat} (hd : d < 16) :
    digitValue? 16 (digitChar upper d) = some d := by
  have h : ∀ upper : Bool, ∀ d : Fin 16, digitValue? 16 (digitChar upper d) = some d.val := by
    decide
  exact h upper ⟨d, hd⟩

/-- Digits are read as the number that they denote, if the limit allows it. -/
theorem readDigits_map (upper : Bool) {limit : Nat} {ds : List Nat} {n : Nat}
    (hds : ∀ d ∈ ds, d < 16) (hle : ds.foldl (fun n d => 16 * n + d) n ≤ limit) :
    readDigits 16 limit n (ds.map (digitChar upper)) =
      some (ds.foldl (fun n d => 16 * n + d) n) := by
  induction ds generalizing n with
  | nil => rfl
  | cons d ds ih =>
    obtain ⟨hd, hds⟩ := List.forall_mem_cons.mp hds
    have hstep : 16 * n + d ≤ limit :=
      Nat.le_trans (foldl_digits_le 16 (by decide) ds (16 * n + d)) hle
    rw [List.map_cons, readDigits, digitValue?_digitChar upper hd]
    dsimp only
    rw [if_pos hstep, ih hds hle]
    rfl

end Number

namespace Hex

open Numeral Number

/-- The digits of a padded number. -/
def paddedDigits (width n : Nat) : List Nat :=
  List.replicate (width - (digits 16 n).length) 0 ++ digits 16 n

variable {upper : Bool} {width n : Nat}

theorem toList_padded :
    (padded upper width n).toList = (paddedDigits width n).map (digitChar upper) := by
  have hzero : '0' = digitChar upper 0 := by
    cases upper with
    | false => rfl
    | true => rfl
  unfold padded paddedDigits chars bytes
  rw [String.toList_ofList, List.leftpad, List.length_map, List.length_map, List.map_append,
    List.map_replicate, List.map_map, ← hzero]
  rfl

theorem value_paddedDigits (width n : Nat) : value 16 (paddedDigits width n) = n := by
  rw [paddedDigits, value_replicate_append, value_digits]

theorem paddedDigits_lt {d : Nat} (h : d ∈ paddedDigits width n) : d < 16 := by
  rcases List.mem_append.mp h with hzero | hdigit
  · rw [(List.mem_replicate.mp hzero).2]
    decide
  · exact digits_lt (by decide) d hdigit

/-- A padded number is read back. -/
theorem readDigits_padded {limit : Nat} (h : n ≤ limit) :
    readDigits 16 limit 0 (padded upper width n).toList = some n := by
  have hvalue : (paddedDigits width n).foldl (fun n d => 16 * n + d) 0 = n :=
    value_paddedDigits width n
  rw [toList_padded, readDigits_map upper (fun _ => paddedDigits_lt) (hvalue.symm ▸ h), hvalue]

theorem padded_inj {m : Nat} (h : padded upper width m = padded upper width n) : m = n := by
  have hm : readDigits 16 (max m n) 0 (padded upper width m).toList = some m :=
    readDigits_padded (Nat.le_max_left m n)
  have hn : readDigits 16 (max m n) 0 (padded upper width n).toList = some n :=
    readDigits_padded (Nat.le_max_right m n)
  rw [h, hn] at hm
  exact (Option.some.inj hm).symm

theorem length_padded (h : n < 16 ^ (width + 1)) :
    (padded upper (width + 1) n).toList.length = width + 1 := by
  have hlength := length_digits_le h
  rw [toList_padded, List.length_map, paddedDigits, List.length_append, List.length_replicate]
  omega

/-! ### Bytes and words -/

theorem length_byte (b : UInt8) : (byte b).toList.length = 2 :=
  length_padded b.toNat_lt

theorem length_word (w : UInt16) : (word w).toList.length = 4 :=
  length_padded w.toNat_lt

theorem byte_inj {a b : UInt8} : byte a = byte b ↔ a = b :=
  ⟨fun h => UInt8.toNat_inj.mp (padded_inj h), congrArg byte⟩

theorem word_inj {v w : UInt16} : word v = word w ↔ v = w :=
  ⟨fun h => UInt16.toNat_inj.mp (padded_inj h), congrArg word⟩

end Hex

end Bench65
