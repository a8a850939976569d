import Bench65.Cpu.Alu
import Bench65.Proofs.Status

/-!
# One byte of arithmetic

What an operation leaves of the flags (`agreeExcept_execute`), and what it does to numbers. Addition
and subtraction, in binary and in decimal mode, obey one law: the result, with the carry out counted
for a whole digit, is the sum of the operand, of a digit to add and of the carry in. What is added
is the second operand, or its complement to the highest digit. In decimal mode a byte is a digit of
base 100, if both its halves are decimal digits (`IsPacked`).
-/

namespace Bench65

namespace Status

theorem carryBit_eq_one_iff (p : Status) : p.carryBit = 1 ↔ p.get carry = true := by
  unfold carryBit
  split <;> simp_all

theorem carryBit_le_one (p : Status) : p.carryBit ≤ 1 := by
  unfold carryBit
  split <;> omega

theorem carryBit_of_get {p : Status} {P : Prop} [Decidable P] (h : p.get carry = decide P) :
    p.carryBit = if P then 1 else 0 := by
  unfold carryBit
  rw [h]
  simp only [decide_eq_true_eq]

theorem get_carry_setNZ (p : Status) (value : UInt8) : (p.setNZ value).get carry = p.get carry :=
  (AgreeExcept.refl [zero, negative] p).setNZ (by decide) (by decide) value carry (by decide)
    (by decide)

theorem get_overflow_setNZ (p : Status) (value : UInt8) :
    (p.setNZ value).get overflow = p.get overflow :=
  (AgreeExcept.refl [zero, negative] p).setNZ (by decide) (by decide) value overflow (by decide)
    (by decide)

end Status

namespace Alu

open Status

/-! ### Flags -/

/-- The flags that an operation sets. -/
def Operation.flags : Operation → List UInt8
  | adc | sbc => [negative, overflow, zero, carry]
  | cmp | asl | lsr | rol | ror => [negative, zero, carry]
  | and | ora | eor => [negative, zero]

section Flags

variable (variant : Variant) (p : Status) (a b : UInt8)

theorem agreeExcept_addBinary : p.AgreeExcept Operation.adc.flags (addBinary p a b).status :=
  (((AgreeExcept.refl _ p).set (by decide) (by decide) _).set (by decide) (by decide) _).setNZ
    (by decide) (by decide) _

theorem agreeExcept_addDecimal :
    p.AgreeExcept Operation.adc.flags (addDecimal variant p a b).status := by
  have hflags : ∀ z n v c, p.AgreeExcept Operation.adc.flags
      ((((p.set zero z).set negative n).set overflow v).set carry c) := by
    intro z n v c
    exact ((((AgreeExcept.refl _ p).set (by decide) (by decide) z).set (by decide) (by decide)
      n).set (by decide) (by decide) v).set (by decide) (by decide) c
  unfold addDecimal
  dsimp only
  split
  · exact (hflags _ _ _ _).setNZ (by decide) (by decide) _
  · exact hflags _ _ _ _

theorem agreeExcept_subtractDecimal :
    p.AgreeExcept Operation.sbc.flags (subtractDecimal variant p a b).status := by
  have hbinary : p.AgreeExcept Operation.sbc.flags (subtractBinary p a b).status :=
    agreeExcept_addBinary p a (~~~b)
  unfold subtractDecimal
  dsimp only
  split
  · exact hbinary.setNZ (by decide) (by decide) _
  · exact hbinary

theorem agreeExcept_compare : p.AgreeExcept Operation.cmp.flags (compare p a b).status :=
  ((AgreeExcept.refl _ p).set (by decide) (by decide) _).setNZ (by decide) (by decide) _

theorem agreeExcept_shifted (value : UInt8) (carryOut : Bool) :
    p.AgreeExcept Operation.asl.flags (shifted p value carryOut).status :=
  ((AgreeExcept.refl _ p).set (by decide) (by decide) _).setNZ (by decide) (by decide) _

/-- No operation changes a flag that is not its own. -/
theorem agreeExcept_execute (op : Operation) :
    p.AgreeExcept op.flags (execute variant op p a b).status := by
  cases op with
  | adc =>
    show p.AgreeExcept _ (if p.get decimal then _ else _ : Result).status
    split
    · exact agreeExcept_addDecimal variant p a b
    · exact agreeExcept_addBinary p a b
  | sbc =>
    show p.AgreeExcept _ (if p.get decimal then _ else _ : Result).status
    split
    · exact agreeExcept_subtractDecimal variant p a b
    · exact agreeExcept_addBinary p a (~~~b)
  | cmp => exact agreeExcept_compare p a b
  | and | ora | eor => exact (AgreeExcept.refl _ p).setNZ (by decide) (by decide) _
  | asl | lsr | rol | ror => exact agreeExcept_shifted p _ _

theorem get_decimal_execute (op : Operation) :
    (execute variant op p a b).status.get decimal = p.get decimal := by
  have hnot : decimal ∉ op.flags := by
    cases op with
    | _ => decide
  exact agreeExcept_execute variant p a b op decimal (by decide) hnot

end Flags

/-! ### Binary sums -/

section Binary

variable (p : Status) (a b : UInt8)

theorem get_carry_addBinary :
    (addBinary p a b).status.get carry = decide (255 < a.toNat + b.toNat + p.carryBit) := by
  unfold addBinary
  dsimp only
  rw [get_carry_setNZ, get_set_of_ne (by decide) (by decide) (by decide),
    get_set_self (by decide)]

/-- The sum of two bytes and the carry. -/
theorem addBinary_sum :
    (addBinary p a b).value.toNat + 256 * (addBinary p a b).status.carryBit =
      a.toNat + b.toNat + p.carryBit := by
  have hvalue : (addBinary p a b).value.toNat = (a.toNat + b.toNat + p.carryBit) % 256 :=
    UInt8.toNat_ofNat'
  have ha := a.toNat_lt
  have hb := b.toNat_lt
  have hc := p.carryBit_le_one
  rw [hvalue, carryBit_of_get (get_carry_addBinary p a b)]
  split <;> omega

theorem isNegative_iff (b : UInt8) : isNegative b = true ↔ 128 ≤ b.toNat := by
  unfold isNegative
  rw [decide_eq_true_iff, UInt8.le_iff_toNat_le]
  rfl

/-- Overflow: the sum of the signed values and the carry is no signed byte. -/
theorem get_overflow_addBinary :
    (addBinary p a b).status.get overflow = true ↔
      ¬ (-128 ≤ signedByte a + signedByte b + p.carryBit ∧
        signedByte a + signedByte b + p.carryBit < 128) := by
  have hvalue : (addBinary p a b).value.toNat = (a.toNat + b.toNat + p.carryBit) % 256 :=
    UInt8.toNat_ofNat'
  have hget : (addBinary p a b).status.get overflow =
      (isNegative a == isNegative b && isNegative a != isNegative (addBinary p a b).value) := by
    unfold addBinary
    dsimp only
    rw [get_overflow_setNZ, get_set_self (by decide)]
  have ha := a.toNat_lt
  have hb := b.toNat_lt
  have hc := p.carryBit_le_one
  have hr := isNegative_iff (addBinary p a b).value
  have hna := isNegative_iff a
  have hnb := isNegative_iff b
  rw [hvalue] at hr
  rw [hget]
  unfold signedByte
  -- the three signs decide each side, and the bounds of the bytes rule out the other cases
  cases h1 : isNegative a <;> cases h2 : isNegative b <;>
    cases h3 : isNegative (addBinary p a b).value <;>
    simp [h1, h2, h3] at hr hna hnb ⊢ <;> omega

end Binary

/-! ### Decimal sums -/

/-- Both halves of the byte are decimal digits. -/
def IsPacked (b : UInt8) : Prop :=
  b.toNat / 16 < 10 ∧ b.toNat % 16 < 10

/-- The number that two packed decimal digits stand for. -/
def packedValue (b : UInt8) : Nat :=
  10 * (b.toNat / 16) + b.toNat % 16

section Decimal

variable (variant : Variant) (p : Status) {a b : UInt8}

theorem get_carry_ite_setNZ (cond : Prop) [Decidable cond] (q : Status) (r : UInt8) :
    (if cond then q.setNZ r else q).get carry = q.get carry := by
  split
  · exact get_carry_setNZ q r
  · rfl

/-- A digit sum above nine is corrected by six, and then carries into the next half byte. -/
theorem corrected_sum {n : Nat} (hn : n < 20) :
    let m := if n > 9 then n + 6 else n
    m % 16 < 10 ∧ m % 16 + 10 * (if m > 15 then 1 else 0) = n ∧ m < 32 := by
  dsimp only
  by_cases h : n > 9
  · rw [if_pos h, if_pos (by omega)]
    omega
  · rw [if_neg h, if_neg (by omega)]
    omega

/-- A negative digit difference is corrected by six, and then borrows from the next half byte. -/
theorem corrected_difference {n : Int} (hlo : -10 ≤ n) (hhi : n < 10) :
    let m := if n < 0 then n - 6 else n
    0 ≤ m % 16 ∧ m % 16 < 10 ∧ m % 16 = n + 10 * (if n < 0 then 1 else 0) := by
  dsimp only
  by_cases h : n < 0
  · rw [if_pos h, if_pos h]
    omega
  · rw [if_neg h, if_neg h]
    omega

/-- The sum of two packed numbers and the carry. -/
theorem addDecimal_sum (ha : IsPacked a) (hb : IsPacked b) :
    IsPacked (addDecimal variant p a b).value ∧
      packedValue (addDecimal variant p a b).value +
          100 * (addDecimal variant p a b).status.carryBit =
        packedValue a + packedValue b + p.carryBit := by
  have hc := p.carryBit_le_one
  unfold IsPacked at ha hb
  obtain ⟨hlow, hlowSum, -⟩ :=
    corrected_sum (n := a.toNat % 16 + b.toNat % 16 + p.carryBit) (by omega)
  -- each digit is a number of its own from here on, the low one with its correction first
  generalize hl : (if a.toNat % 16 + b.toNat % 16 + p.carryBit > 9 then
    a.toNat % 16 + b.toNat % 16 + p.carryBit + 6
    else a.toNat % 16 + b.toNat % 16 + p.carryBit) = low at hlow hlowSum
  obtain ⟨hhigh, hhighSum, hlt⟩ :=
    corrected_sum (n := a.toNat / 16 + b.toNat / 16 + if low > 15 then 1 else 0)
      (by split <;> omega)
  generalize hh : (if a.toNat / 16 + b.toNat / 16 + (if low > 15 then 1 else 0) > 9 then
    a.toNat / 16 + b.toNat / 16 + (if low > 15 then 1 else 0) + 6
    else a.toNat / 16 + b.toNat / 16 + if low > 15 then 1 else 0) = high at hhigh hhighSum hlt
  have hvalue : (addDecimal variant p a b).value.toNat = (high * 16 + low % 16) % 256 := by
    subst hl hh
    exact UInt8.toNat_ofNat'
  have hcarry : (addDecimal variant p a b).status.get carry = decide (high > 15) := by
    subst hl hh
    unfold addDecimal
    dsimp only
    rw [get_carry_ite_setNZ, get_set_self (by decide)]
  have hdigits : (addDecimal variant p a b).value.toNat / 16 = high % 16 ∧
      (addDecimal variant p a b).value.toNat % 16 = low % 16 := by
    rw [hvalue]
    omega
  rw [carryBit_of_get hcarry]
  unfold IsPacked packedValue
  rw [hdigits.1, hdigits.2]
  omega

/-- The difference of two packed numbers and the borrow, with the complement of the second one
added in place of a subtraction. -/
theorem subtractDecimal_sum (ha : IsPacked a) (hb : IsPacked b) :
    IsPacked (subtractDecimal variant p a b).value ∧
      packedValue (subtractDecimal variant p a b).value +
          100 * (subtractDecimal variant p a b).status.carryBit =
        packedValue a + (99 - packedValue b) + p.carryBit := by
  have hc := p.carryBit_le_one
  have hblt := b.toNat_lt
  unfold IsPacked at ha hb
  -- the digits are subtracted as integers, so that a borrow is a negative difference
  obtain ⟨lowDiff, hl⟩ : ∃ n : Int,
    n = (a.toNat % 16 : Nat) - (b.toNat % 16 : Nat) - (1 - p.carryBit : Nat) := ⟨_, rfl⟩
  obtain ⟨highDiff, hh⟩ : ∃ n : Int,
    n = (a.toNat / 16 : Nat) - (b.toNat / 16 : Nat) - if lowDiff < 0 then 1 else 0 := ⟨_, rfl⟩
  obtain ⟨hlow, hlowLt, hlowEq⟩ := corrected_difference (n := lowDiff) (by omega) (by omega)
  obtain ⟨hhigh, hhighLt, hhighEq⟩ :=
    corrected_difference (n := highDiff) (by split at hh <;> omega) (by split at hh <;> omega)
  have hvalue : (subtractDecimal variant p a b).value.toNat =
      (((if highDiff < 0 then highDiff - 6 else highDiff) * 16 +
        (if lowDiff < 0 then lowDiff - 6 else lowDiff) % 16) % 256).toNat % 256 := by
    subst hl hh
    exact UInt8.toNat_ofNat'
  have hcarry : (subtractDecimal variant p a b).status.get carry =
      decide (255 < a.toNat + (255 - b.toNat) + p.carryBit) := by
    unfold subtractDecimal subtractBinary
    dsimp only
    rw [get_carry_ite_setNZ, get_carry_addBinary, UInt8.toNat_not]
    rfl
  generalize (if lowDiff < 0 then lowDiff - 6 else lowDiff) = low at hlow hlowLt hlowEq hvalue
  generalize (if highDiff < 0 then highDiff - 6 else highDiff) = high
    at hhigh hhighLt hhighEq hvalue
  have hdigits : ((subtractDecimal variant p a b).value.toNat / 16 : Int) = high % 16 ∧
      ((subtractDecimal variant p a b).value.toNat % 16 : Int) = low % 16 := by
    rw [hvalue]
    omega
  -- the carry is that of the binary difference, and the packed bytes are ordered as their values
  have hborrow : 255 < a.toNat + (255 - b.toNat) + p.carryBit ↔ ¬ highDiff < 0 := by
    split at hh <;> omega
  rw [carryBit_of_get (hcarry.trans (decide_eq_decide.mpr hborrow))]
  unfold IsPacked packedValue
  split at hh <;> split at hhighEq <;> split <;> omega

end Decimal

/-! ### Shifts -/

section Shifts

variable (p : Status) (a : UInt8) {c : Nat}

theorem carryBit_shifted (value : UInt8) (carryOut : Bool) :
    (shifted p value carryOut).status.carryBit = if carryOut then 1 else 0 := by
  unfold carryBit shifted
  rw [get_carry_setNZ, get_set_self (by decide)]

/-- A shift to the left doubles, with the bit shifted out counted for a whole byte. -/
theorem shiftedLeft_sum (hc : c ≤ 1) :
    (shifted p (UInt8.ofNat (2 * a.toNat + c)) (isNegative a)).value.toNat +
        256 * (shifted p (UInt8.ofNat (2 * a.toNat + c)) (isNegative a)).status.carryBit =
      2 * a.toNat + c := by
  have ha := a.toNat_lt
  have hvalue : (UInt8.ofNat (2 * a.toNat + c)).toNat = (2 * a.toNat + c) % 256 :=
    UInt8.toNat_ofNat'
  simp only [carryBit_shifted, isNegative_iff]
  show (UInt8.ofNat _).toNat + _ = _
  rw [hvalue]
  split <;> omega

/-- A shift to the right halves a byte with the bit shifted in above it, and the bit shifted out is
the remainder. -/
theorem shiftedRight_sum (hc : c ≤ 1) :
    2 * (shifted p (UInt8.ofNat (a.toNat / 2 + 128 * c)) (a &&& 1 != 0)).value.toNat +
        (shifted p (UInt8.ofNat (a.toNat / 2 + 128 * c)) (a &&& 1 != 0)).status.carryBit =
      a.toNat + 256 * c := by
  have ha := a.toNat_lt
  have hvalue : (UInt8.ofNat (a.toNat / 2 + 128 * c)).toNat = (a.toNat / 2 + 128 * c) % 256 :=
    UInt8.toNat_ofNat'
  have hbit : (a &&& 1 != 0) = true ↔ a.toNat % 2 = 1 := by
    rw [bne_iff_ne, ne_eq, ← UInt8.toNat_inj, UInt8.toNat_and]
    show ¬ a.toNat &&& 1 = 0 ↔ _
    rw [Nat.and_one_is_mod]
    omega
  simp only [carryBit_shifted, hbit]
  show 2 * (UInt8.ofNat _).toNat + _ = _
  rw [hvalue]
  split <;> omega

end Shifts

end Alu

end Bench65
