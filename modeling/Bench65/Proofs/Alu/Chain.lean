import Mathlib.Data.Nat.Digits.Defs
import Mathlib.Tactic.Ring
import Bench65.Proofs.Alu

/-!
# Numbers of many bytes

The unit works on single bytes. A number of several bytes, the lowest first, is added, subtracted or
shifted by a chain of operations, each of which finds in the carry flag what the one before left
there. `chain_specification` says what such a chain computes, for numbers of every length:

* `adc` and `sbc` from the low byte up add and subtract modulo the number of values, with carry out
  and signed overflow of the whole numbers;
* in decimal mode they do so with packed decimal digits;
* `asl` followed by `rol` doubles, and `lsr` followed by `ror` from the high byte down halves.

All upward chains are the same sum of digits with a carry (`AddsDigits`).
-/

namespace Bench65.Alu

open Status

/-- Operations performed in turn, each with the status that the one before it leaves. -/
def chain (variant : Variant) : Status → List (Operation × UInt8 × UInt8) → List UInt8 × Status
  | p, [] => ([], p)
  | p, (op, a, b) :: rest =>
    let r := execute variant op p a b
    let (values, q) := chain variant r.status rest
    (r.value :: values, q)

/-- One operation on every pair of bytes. -/
def each (op : Operation) (pairs : List (UInt8 × UInt8)) : List (Operation × UInt8 × UInt8) :=
  pairs.map (Prod.mk op)

/-- One operation on the first pair of bytes, another on all that follow. -/
def firstThen (first next : Operation) :
    List (UInt8 × UInt8) → List (Operation × UInt8 × UInt8)
  | [] => []
  | pair :: rest => (first, pair) :: each next rest

theorem chain_each_cons (variant : Variant) (op : Operation) (p : Status) (a b : UInt8)
    (rest : List (UInt8 × UInt8)) :
    chain variant p (each op ((a, b) :: rest)) =
      ((execute variant op p a b).value ::
          (chain variant (execute variant op p a b).status (each op rest)).1,
        (chain variant (execute variant op p a b).status (each op rest)).2) :=
  rfl

/-- The number that bytes stand for, the lowest first. -/
def number (bytes : List UInt8) : Nat :=
  Nat.ofDigits 256 (bytes.map UInt8.toNat)

/-- The number that packed decimal digits stand for, the lowest byte first. -/
def decimalNumber (bytes : List UInt8) : Nat :=
  Nat.ofDigits 100 (bytes.map packedValue)

/-- The value of the bytes in two's complement. -/
def signedNumber (bytes : List UInt8) : Int :=
  if 2 * number bytes < 256 ^ bytes.length then number bytes
  else (number bytes : Int) - 256 ^ bytes.length

/-- The value has a representation in two's complement of `n` bytes. -/
def FitsSigned (n : Nat) (value : Int) : Prop :=
  -256 ^ n ≤ 2 * value ∧ 2 * value < 256 ^ n

instance (n : Nat) (value : Int) : Decidable (FitsSigned n value) :=
  inferInstanceAs (Decidable (_ ∧ _))

instance (b : UInt8) : Decidable (IsPacked b) :=
  inferInstanceAs (Decidable (_ ∧ _))

/-! ### Numbers and their bytes -/

theorem number_cons (x : UInt8) (xs : List UInt8) :
    number (x :: xs) = x.toNat + 256 * number xs :=
  Nat.ofDigits_cons

theorem packedValue_lt {b : UInt8} (h : IsPacked b) : packedValue b < 100 := by
  unfold IsPacked at h
  unfold packedValue
  omega

/-- Digits of a base stand for a number below its power. -/
theorem ofDigits_map_lt {base : Nat} (hbase : 1 < base) (digit : UInt8 → Nat) {xs : List UInt8}
    (h : ∀ x ∈ xs, digit x < base) : Nat.ofDigits base (xs.map digit) < base ^ xs.length := by
  have hdigits : ∀ d ∈ xs.map digit, d < base := by
    intro d hd
    obtain ⟨x, hx, rfl⟩ := List.mem_map.mp hd
    exact h x hx
  have hlt := Nat.ofDigits_lt_base_pow_length hbase hdigits
  rwa [List.length_map] at hlt

/-- The number of values of `n + 1` bytes is even. -/
theorem pow_succ_eq_double (n : Nat) : ∃ half, 256 ^ (n + 1) = 2 * half :=
  ⟨128 * 256 ^ n, by ring⟩

/-- The sign is that of the highest byte: a byte below contributes its plain value. -/
theorem signedNumber_cons (x : UInt8) {xs : List UInt8} (hne : xs ≠ []) :
    signedNumber (x :: xs) = x.toNat + 256 * signedNumber xs := by
  obtain ⟨n, hn⟩ := Nat.exists_eq_succ_of_ne_zero (mt List.length_eq_zero_iff.mp hne)
  obtain ⟨half, hhalf⟩ := pow_succ_eq_double n
  have hx := x.toNat_lt
  -- half of the power is a number of its own, and the sign is that of the highest byte
  have hpow : (256 : Int) ^ xs.length = ((256 ^ (n + 1) : Nat) : Int) := by
    rw [hn]
    norm_cast
  have hlen : (x :: xs).length = xs.length + 1 := rfl
  unfold signedNumber
  rw [number_cons, hlen, pow_succ, pow_succ, hpow, hn, hhalf]
  split <;> split <;> omega

theorem signedNumber_singleton (x : UInt8) : signedNumber [x] = signedByte x := by
  have hnumber : number [x] = x.toNat := Nat.ofDigits_singleton ..
  have hx := x.toNat_lt
  have hneg := isNegative_iff x
  unfold signedNumber signedByte
  rw [hnumber]
  simp only [hneg, List.length_singleton, pow_one]
  split <;> split <;> omega

theorem fitsSigned_one_iff (v : Int) : FitsSigned 1 v ↔ -128 ≤ v ∧ v < 128 := by
  unfold FitsSigned
  omega

/-- A low byte decides nothing about whether a value fits. -/
theorem fitsSigned_succ_iff {n : Nat} (hn : n ≠ 0) (low : UInt8) (v : Int) :
    FitsSigned (n + 1) (low.toNat + 256 * v) ↔ FitsSigned n v := by
  obtain ⟨m, rfl⟩ := Nat.exists_eq_succ_of_ne_zero hn
  obtain ⟨half, hhalf⟩ := pow_succ_eq_double m
  have hlow := low.toNat_lt
  have hpow : (256 : Int) ^ (m + 1) = ((256 ^ (m + 1) : Nat) : Int) := by norm_cast
  unfold FitsSigned
  rw [Nat.succ_eq_add_one, pow_succ _ (m + 1), hpow, hhalf]
  omega

/-! ### Complements -/

/-- Digits and their complements to the highest digit add up to the highest number. -/
theorem ofDigits_complement {α : Type} (base : Nat) (hbase : 1 ≤ base) (digit : α → Nat) :
    ∀ ys : List α, (∀ y ∈ ys, digit y < base) →
      Nat.ofDigits base (ys.map fun y => base - 1 - digit y) +
        Nat.ofDigits base (ys.map digit) + 1 = base ^ ys.length
  | [], _ => rfl
  | y :: ys, h => by
    have hy := h y List.mem_cons_self
    have ih := ofDigits_complement base hbase digit ys
      fun y' hy' => h y' (List.mem_cons_of_mem y hy')
    rw [List.map_cons, List.map_cons, Nat.ofDigits_cons, Nat.ofDigits_cons, List.length_cons,
      pow_succ, ← ih]
    -- the complement is named, as it is not subtracted any more
    have hdigit : base = base - 1 - digit y + digit y + 1 := by omega
    generalize base - 1 - digit y = c at hdigit ⊢
    subst hdigit
    ring

theorem number_complement (ys : List UInt8) :
    number (ys.map (~~~·)) + number ys + 1 = 256 ^ ys.length := by
  have hmap : (ys.map (~~~·)).map UInt8.toNat = ys.map fun y => 256 - 1 - y.toNat := by
    rw [List.map_map]
    exact List.map_congr_left fun y _ => UInt8.toNat_not y
  unfold number
  rw [hmap]
  exact ofDigits_complement 256 (by decide) UInt8.toNat ys fun y _ => y.toNat_lt

theorem signedNumber_complement {ys : List UInt8} (hne : ys ≠ []) :
    signedNumber (ys.map (~~~·)) = -1 - signedNumber ys := by
  obtain ⟨n, hn⟩ := Nat.exists_eq_succ_of_ne_zero (mt List.length_eq_zero_iff.mp hne)
  obtain ⟨half, hhalf⟩ := pow_succ_eq_double n
  have hsum := number_complement ys
  have hpow : (256 : Int) ^ (n + 1) = ((256 ^ (n + 1) : Nat) : Int) := by norm_cast
  rw [hn, Nat.succ_eq_add_one, hhalf] at hsum
  unfold signedNumber
  rw [List.length_map, hn, Nat.succ_eq_add_one, hpow, hhalf]
  split <;> split <;> omega

/-! ### Passing a carry on -/

/-- The carry out of a low digit enters the digits above it. -/
theorem carry_upward {base weight low first high rest c c' : Nat} (hlow : low + base * c = first)
    (hhigh : high + weight * c' = rest + c) :
    low + base * high + weight * base * c' = first + base * rest := by
  calc low + base * high + weight * base * c' = low + base * (high + weight * c') := by ring
    _ = low + base * c + base * rest := by rw [hhigh]; ring
    _ = first + base * rest := by rw [hlow]

/-- The remainder of a high digit enters the digits below it. -/
theorem carry_downward {weight high first low rest c c' : Nat} (hhigh : 2 * high + c = first)
    (hlow : 2 * low + c' = rest + weight * c) :
    2 * (low + weight * high) + c' = rest + weight * first := by
  calc 2 * (low + weight * high) + c' = 2 * low + c' + weight * (2 * high) := by ring
    _ = rest + weight * (2 * high + c) := by rw [hlow]; ring
    _ = rest + weight * first := by rw [hhigh]

/-! ### Upward chains -/

section Upward

variable {variant : Variant} {op : Operation} {mode : Bool} {base : Nat}
  {digit : UInt8 → Nat} {input : UInt8 → UInt8 → Nat} {Valid : UInt8 → Prop}

/-- An operation that adds up digits: its result, with the carry out counted for a whole digit, is
what its operands contribute and the carry in. -/
structure AddsDigits (variant : Variant) (op : Operation) (mode : Bool) (base : Nat)
    (digit : UInt8 → Nat) (input : UInt8 → UInt8 → Nat) (Valid : UInt8 → Prop) : Prop where
  /-- The digits are digits of the base. -/
  digit_lt : ∀ a, Valid a → digit a < base
  /-- The result is a digit again, and with the carry out it is the sum. -/
  step : ∀ p a b, p.get decimal = mode → Valid a → Valid b →
    Valid (execute variant op p a b).value ∧
      digit (execute variant op p a b).value + base * (execute variant op p a b).status.carryBit =
        input a b + p.carryBit

/-- What a chain of such operations leaves. -/
structure Summed (mode : Bool) (base : Nat) (digit : UInt8 → Nat) (Valid : UInt8 → Prop)
    (total : Nat) (pairs : List (UInt8 × UInt8)) (r : List UInt8 × Status) : Prop where
  /-- A digit for each pair. -/
  length : r.1.length = pairs.length
  /-- The digits are valid. -/
  valid : ∀ z ∈ r.1, Valid z
  /-- The mode has not changed. -/
  mode_eq : r.2.get decimal = mode
  /-- The digits and the carry out are the sum. -/
  sum : Nat.ofDigits base (r.1.map digit) + base ^ pairs.length * r.2.carryBit = total

theorem AddsDigits.chain (hadds : AddsDigits variant op mode base digit input Valid) :
    ∀ (p : Status) (pairs : List (UInt8 × UInt8)), p.get decimal = mode →
      (∀ pair ∈ pairs, Valid pair.1 ∧ Valid pair.2) →
      Summed mode base digit Valid
        (Nat.ofDigits base (pairs.map fun pair => input pair.1 pair.2) + p.carryBit) pairs
        (chain variant p (each op pairs))
  | p, [], hmode, _ => by
    refine ⟨rfl, fun _ h => absurd h List.not_mem_nil, hmode, ?_⟩
    simp [each, Alu.chain]
  | p, (a, b) :: rest, hmode, hvalid => by
    obtain ⟨ha, hb⟩ := hvalid (a, b) List.mem_cons_self
    have hmode' : (execute variant op p a b).status.get decimal = mode := by
      rw [get_decimal_execute, hmode]
    -- the first digit hands its carry to the chain over the others
    obtain ⟨hdigit, hone⟩ := hadds.step p a b hmode ha hb
    have hrest := hadds.chain (execute variant op p a b).status rest hmode' fun pair h =>
      hvalid pair (List.mem_cons_of_mem _ h)
    rw [chain_each_cons]
    refine ⟨?_, ?_, hrest.mode_eq, ?_⟩
    · exact congrArg (· + 1) hrest.length
    · intro z hz
      rcases List.mem_cons.mp hz with rfl | hz
      · exact hdigit
      · exact hrest.valid z hz
    · rw [List.map_cons, List.map_cons, Nat.ofDigits_cons, Nat.ofDigits_cons, List.length_cons,
        pow_succ, Nat.add_right_comm (input a b)]
      exact carry_upward hone hrest.sum

/-- The digits of a total, and its carry. -/
theorem split_total {p : Status} {digits total : Nat} (hlt : digits < base)
    (hsum : digits + base * p.carryBit = total) :
    digits = total % base ∧ (p.get carry = true ↔ base ≤ total) := by
  rw [← carryBit_eq_one_iff, ← hsum]
  rcases Nat.le_one_iff_eq_zero_or_eq_one.mp p.carryBit_le_one with h | h
  · rw [h, Nat.mul_zero, Nat.add_zero, Nat.mod_eq_of_lt hlt]
    omega
  · rw [h, Nat.mul_one, Nat.add_mod_right, Nat.mod_eq_of_lt hlt]
    omega

/-- The digits of two numbers added in pairs. -/
theorem ofDigits_zip_add (base : Nat) (f g : UInt8 → Nat) {xs ys : List UInt8}
    (hlen : ys.length = xs.length) :
    Nat.ofDigits base ((xs.zip ys).map fun pair => f pair.1 + g pair.2) =
      Nat.ofDigits base (xs.map f) + Nat.ofDigits base (ys.map g) := by
  have hlen' : (xs.map f).length = (ys.map g).length := by
    rw [List.length_map, List.length_map, hlen]
  rw [Nat.ofDigits_add_ofDigits_eq_ofDigits_zipWith_of_length_eq hlen', List.zipWith_map,
    ← List.map_uncurry_zip_eq_zipWith]
  rfl

theorem length_zip_eq {xs ys : List UInt8} (hlen : ys.length = xs.length) :
    (xs.zip ys).length = xs.length := by
  rw [List.length_zip, hlen, Nat.min_self]

/-- A chain over two numbers of equal length adds them, one of them seen through `addend`. -/
theorem AddsDigits.total {addend : UInt8 → Nat}
    (hadds : AddsDigits variant op mode base digit (fun a b => digit a + addend b) Valid)
    (hbase : 1 < base) {p : Status} {xs ys : List UInt8} (hlen : ys.length = xs.length)
    (hmode : p.get decimal = mode) (hxs : ∀ x ∈ xs, Valid x) (hys : ∀ y ∈ ys, Valid y) :
    let r := Alu.chain variant p (each op (xs.zip ys))
    let total := Nat.ofDigits base (xs.map digit) + Nat.ofDigits base (ys.map addend) + p.carryBit
    r.1.length = xs.length ∧ (∀ z ∈ r.1, Valid z) ∧
      Nat.ofDigits base (r.1.map digit) = total % base ^ xs.length ∧
      (r.2.get carry = true ↔ base ^ xs.length ≤ total) := by
  intro r total
  have h := hadds.chain p (xs.zip ys) hmode fun pair hpair =>
    ⟨hxs _ (List.of_mem_zip hpair).1, hys _ (List.of_mem_zip hpair).2⟩
  have hlength : r.1.length = xs.length := h.length.trans (length_zip_eq hlen)
  have hsum := h.sum
  rw [length_zip_eq hlen, ofDigits_zip_add base _ _ hlen] at hsum
  have hlt := ofDigits_map_lt hbase digit fun z hz => hadds.digit_lt z (h.valid z hz)
  rw [h.length, length_zip_eq hlen] at hlt
  exact ⟨hlength, h.valid, split_total hlt hsum⟩

/-- A total with a complement is a difference, and its carry the lack of a borrow. -/
theorem difference_of_total {p : Status} {m x y y' z : Nat} (hcomplement : y' + y + 1 = m)
    (hz : z = (x + y' + p.carryBit) % m) :
    (z : Int) = ((x : Int) - y - (1 - p.carryBit)) % m ∧
      (m ≤ x + y' + p.carryBit ↔ y + (1 - p.carryBit) ≤ x) := by
  have hc := p.carryBit_le_one
  have hshift : (x : Int) - y - (1 - p.carryBit) = ((x + y' + p.carryBit : Nat) : Int) - m := by
    omega
  rw [hshift, Int.sub_emod_right, hz, Int.natCast_emod]
  exact ⟨rfl, by omega⟩

end Upward

/-! ### Binary sums and differences -/

section Binary

variable (variant : Variant) {p : Status} {a b : UInt8} {xs ys : List UInt8}

theorem execute_adc_binary (hbinary : p.get decimal = false) :
    execute variant .adc p a b = addBinary p a b := by
  show (if p.get decimal then _ else _) = _
  rw [hbinary]
  rfl

/-- Without decimal mode, subtraction adds the complement. -/
theorem execute_sbc_binary (hbinary : p.get decimal = false) :
    execute variant .sbc p a b = execute variant .adc p a (~~~b) := by
  rw [execute_adc_binary variant hbinary]
  show (if p.get decimal then _ else _) = _
  rw [hbinary]
  rfl

theorem addsDigits_adc_binary :
    AddsDigits variant .adc false 256 UInt8.toNat (fun a b => a.toNat + b.toNat) fun _ => True where
  digit_lt a _ := a.toNat_lt
  step p a b hbinary _ _ := by
    rw [execute_adc_binary variant hbinary]
    exact ⟨trivial, addBinary_sum p a b⟩

theorem get_overflow_chain_adc : ∀ {p : Status} {xs ys : List UInt8}, ys.length = xs.length →
    xs ≠ [] → p.get decimal = false →
    ((chain variant p (each .adc (xs.zip ys))).2.get overflow = true ↔
      ¬ FitsSigned xs.length (signedNumber xs + signedNumber ys + p.carryBit))
  | p, [x], [y], _, _, hbinary => by
    show (execute variant .adc p x y).status.get overflow = true ↔ _
    rw [execute_adc_binary variant hbinary, get_overflow_addBinary, signedNumber_singleton,
      signedNumber_singleton, List.length_singleton, fitsSigned_one_iff]
  | p, x :: x' :: xs, y :: y' :: ys, hlen, _, hbinary => by
    have hbinary' : (execute variant .adc p x y).status.get decimal = false := by
      rw [get_decimal_execute, hbinary]
    have hlen' : (y' :: ys).length = (x' :: xs).length := Nat.succ.inj hlen
    have ih := get_overflow_chain_adc hlen' (List.cons_ne_nil x' xs) hbinary'
    have hsum := ((addsDigits_adc_binary variant).step p x y hbinary trivial trivial).2
    rw [List.zip_cons_cons, chain_each_cons, ih, signedNumber_cons x (List.cons_ne_nil x' xs),
      signedNumber_cons y (List.cons_ne_nil y' ys), List.length_cons (a := x),
      ← fitsSigned_succ_iff (by simp) (execute variant .adc p x y).value]
    -- the byte and the carry it leaves stand for the bytes and the carry it was made of
    have htotal : ∀ s t : Int,
        (x.toNat + 256 * s + (y.toNat + 256 * t) + p.carryBit : Int) =
          (execute variant .adc p x y).value.toNat +
            256 * (s + t + (execute variant .adc p x y).status.carryBit) := by
      intro s t
      omega
    rw [htotal]

theorem chain_sbc : ∀ {p : Status} {xs ys : List UInt8}, p.get decimal = false →
    chain variant p (each .sbc (xs.zip ys)) = chain variant p (each .adc (xs.zip (ys.map (~~~·))))
  | _, [], _, _ => rfl
  | _, _ :: _, [], _ => rfl
  | p, x :: xs, y :: ys, hbinary => by
    have hbinary' : (execute variant .adc p x (~~~y)).status.get decimal = false := by
      rw [get_decimal_execute, hbinary]
    rw [List.map_cons, List.zip_cons_cons, List.zip_cons_cons, chain_each_cons, chain_each_cons,
      execute_sbc_binary variant hbinary, chain_sbc hbinary']

theorem chain_sbc_total (hlen : ys.length = xs.length) (hbinary : p.get decimal = false) :
    let r := chain variant p (each .sbc (xs.zip ys))
    r.1.length = xs.length ∧
      (number r.1 : Int) =
        ((number xs : Int) - number ys - (1 - p.carryBit)) % (256 ^ xs.length : Nat) ∧
      (r.2.get carry = true ↔ number ys + (1 - p.carryBit) ≤ number xs) := by
  intro r
  have hlen' : (ys.map (~~~·)).length = xs.length := by rw [List.length_map, hlen]
  obtain ⟨hlength, -, hvalue, hcarry⟩ := (addsDigits_adc_binary variant).total (by decide) hlen'
    hbinary (fun _ _ => trivial) fun _ _ => trivial
  rw [← chain_sbc variant hbinary] at hlength hvalue hcarry
  -- subtraction adds the complements of the bytes, and so that of the number
  have hcomplement := number_complement ys
  rw [hlen] at hcomplement
  have hdifference := difference_of_total hcomplement hvalue
  exact ⟨hlength, hdifference.1, hcarry.trans hdifference.2⟩

theorem get_overflow_chain_sbc (hlen : ys.length = xs.length) (hne : xs ≠ [])
    (hbinary : p.get decimal = false) :
    (chain variant p (each .sbc (xs.zip ys))).2.get overflow = true ↔
      ¬ FitsSigned xs.length (signedNumber xs - signedNumber ys - (1 - p.carryBit)) := by
  have hne' : ys ≠ [] := by
    rintro rfl
    exact hne (List.length_eq_zero_iff.mp hlen.symm)
  have hdifference : signedNumber xs + (-1 - signedNumber ys) + p.carryBit =
      signedNumber xs - signedNumber ys - (1 - p.carryBit) := by
    omega
  rw [chain_sbc variant hbinary, get_overflow_chain_adc variant (by rw [List.length_map, hlen]) hne
    hbinary, signedNumber_complement hne', hdifference]

end Binary

/-! ### Decimal sums and differences -/

section Decimal

variable (variant : Variant) {p : Status} {a b : UInt8}

theorem execute_adc_decimal (hdecimal : p.get decimal = true) :
    execute variant .adc p a b = addDecimal variant p a b := by
  show (if p.get decimal then _ else _) = _
  rw [hdecimal]
  rfl

theorem execute_sbc_decimal (hdecimal : p.get decimal = true) :
    execute variant .sbc p a b = subtractDecimal variant p a b := by
  show (if p.get decimal then _ else _) = _
  rw [hdecimal]
  rfl

theorem addsDigits_adc_decimal :
    AddsDigits variant .adc true 100 packedValue (fun a b => packedValue a + packedValue b)
      IsPacked where
  digit_lt _ ha := packedValue_lt ha
  step p a b hdecimal ha hb := by
    rw [execute_adc_decimal variant hdecimal]
    exact addDecimal_sum variant p ha hb

theorem addsDigits_sbc_decimal :
    AddsDigits variant .sbc true 100 packedValue
      (fun a b => packedValue a + (100 - 1 - packedValue b)) IsPacked where
  digit_lt _ ha := packedValue_lt ha
  step p a b hdecimal ha hb := by
    rw [execute_sbc_decimal variant hdecimal]
    exact subtractDecimal_sum variant p ha hb

end Decimal

/-! ### Shifts -/

section Shifts

variable (variant : Variant) {p : Status} {xs ys : List UInt8}

theorem addsDigits_rol (mode : Bool) :
    AddsDigits variant .rol mode 256 UInt8.toNat (fun a _ => 2 * a.toNat) fun _ => True where
  digit_lt a _ := a.toNat_lt
  step p a _ _ _ _ := ⟨trivial, shiftedLeft_sum p a p.carryBit_le_one⟩

theorem map_fst_zip_eq (hlen : ys.length = xs.length) : (xs.zip ys).map Prod.fst = xs :=
  List.map_fst_zip (Nat.le_of_eq hlen.symm)

/-- The digits of a number doubled one by one. -/
theorem ofDigits_double (hlen : ys.length = xs.length) :
    Nat.ofDigits 256 ((xs.zip ys).map fun pair => 2 * pair.1.toNat) = 2 * number xs := by
  unfold number
  rw [← map_fst_zip_eq hlen, Nat.mul_ofDigits, List.map_map, List.map_map, map_fst_zip_eq hlen]
  rfl

theorem chain_asl_rol : ∀ {xs ys : List UInt8}, ys.length = xs.length → xs ≠ [] →
    let r := chain variant p (firstThen .asl .rol (xs.zip ys))
    r.1.length = xs.length ∧ number r.1 = 2 * number xs % 256 ^ xs.length ∧
      (r.2.get carry = true ↔ 256 ^ xs.length ≤ 2 * number xs)
  | x :: xs, y :: ys, hlen, _ => by
    intro r
    have hlow := shiftedLeft_sum p x (Nat.zero_le 1)
    -- the lowest byte is shifted with nothing coming in, the others take the carry of the one
    -- before
    have hrest := (addsDigits_rol variant _).chain (execute variant .asl p x y).status (xs.zip ys)
      rfl fun _ _ => ⟨trivial, trivial⟩
    have hsum := hrest.sum
    have hlength : r.1.length = (x :: xs).length :=
      congrArg (· + 1) (hrest.length.trans (length_zip_eq (Nat.succ.inj hlen)))
    rw [ofDigits_double (Nat.succ.inj hlen), length_zip_eq (Nat.succ.inj hlen)] at hsum
    have htotal : number r.1 + 256 ^ (x :: xs).length * r.2.carryBit = 2 * number (x :: xs) := by
      have hcons : number r.1 = (execute variant .asl p x y).value.toNat +
          256 * number (chain variant (execute variant .asl p x y).status
            (each .rol (xs.zip ys))).1 := number_cons _ _
      rw [hcons, number_cons, List.length_cons, pow_succ, mul_add, Nat.mul_left_comm]
      exact carry_upward hlow hsum
    have hlt := ofDigits_map_lt (by decide) UInt8.toNat fun z (_ : z ∈ r.1) => z.toNat_lt
    rw [hlength] at hlt
    exact ⟨hlength, split_total hlt htotal⟩

theorem number_reverse_cons (x : UInt8) (xs : List UInt8) :
    number (x :: xs).reverse = number xs.reverse + 256 ^ xs.length * x.toNat := by
  unfold number
  rw [List.map_reverse, List.map_reverse, List.map_cons, Nat.ofDigits_reverse_cons, List.length_map]

/-- Rotations to the right, from the high byte down: twice the result and the carry out are the
number with the carry in above it. -/
theorem chain_ror : ∀ (p : Status) (pairs : List (UInt8 × UInt8)),
    let r := chain variant p (each .ror pairs)
    r.1.length = pairs.length ∧
      2 * number r.1.reverse + r.2.carryBit =
        number (pairs.map Prod.fst).reverse + 256 ^ pairs.length * p.carryBit
  | p, [] => by simp [each, chain, number]
  | p, (a, b) :: rest => by
    obtain ⟨hlength, hsum⟩ := chain_ror (execute variant .ror p a b).status rest
    have hhigh : 2 * (execute variant .ror p a b).value.toNat +
        (execute variant .ror p a b).status.carryBit = a.toNat + 256 * p.carryBit :=
      shiftedRight_sum p a p.carryBit_le_one
    rw [chain_each_cons]
    refine ⟨congrArg (· + 1) hlength, ?_⟩
    rw [number_reverse_cons, List.map_cons, number_reverse_cons, List.length_map, hlength,
      List.length_cons, pow_succ, Nat.mul_assoc, Nat.add_assoc, ← Nat.mul_add]
    exact carry_downward hhigh hsum

theorem chain_lsr_ror : ∀ {pairs : List (UInt8 × UInt8)}, pairs ≠ [] →
    let r := chain variant p (firstThen .lsr .ror pairs)
    r.1.length = pairs.length ∧
      2 * number r.1.reverse + r.2.carryBit = number (pairs.map Prod.fst).reverse
  | (a, b) :: rest, _ => by
    obtain ⟨hlength, hsum⟩ := chain_ror variant (execute variant .lsr p a b).status rest
    have hhigh : 2 * (execute variant .lsr p a b).value.toNat +
        (execute variant .lsr p a b).status.carryBit = a.toNat :=
      shiftedRight_sum p a (Nat.zero_le 1)
    refine ⟨congrArg (· + 1) hlength, ?_⟩
    show 2 * number ((execute variant .lsr p a b).value :: (chain variant
      (execute variant .lsr p a b).status (each .ror rest)).1).reverse + _ = _
    rw [number_reverse_cons, List.map_cons, number_reverse_cons, List.length_map, hlength]
    exact carry_downward hhigh hsum

end Shifts

/-! ### What chains compute -/

/-- What the chains over the bytes of two numbers of equal length leave: the bytes of the result,
and the flags that the last operation leaves. -/
structure Computes (variant : Variant) (p : Status) (xs ys : List UInt8) : Prop where
  /-- Addition of the two numbers and the carry. -/
  add : p.get decimal = false →
    let r := chain variant p (each .adc (xs.zip ys))
    r.1.length = xs.length ∧
      number r.1 = (number xs + number ys + p.carryBit) % 256 ^ xs.length ∧
      (r.2.get carry = true ↔ 256 ^ xs.length ≤ number xs + number ys + p.carryBit) ∧
      (r.2.get overflow = true ↔
        ¬ FitsSigned xs.length (signedNumber xs + signedNumber ys + p.carryBit))
  /-- Subtraction with borrow; the carry says that none was needed. -/
  subtract : p.get decimal = false →
    let r := chain variant p (each .sbc (xs.zip ys))
    r.1.length = xs.length ∧
      (number r.1 : Int) =
        ((number xs : Int) - number ys - (1 - p.carryBit)) % (256 ^ xs.length : Nat) ∧
      (r.2.get carry = true ↔ number ys + (1 - p.carryBit) ≤ number xs) ∧
      (r.2.get overflow = true ↔
        ¬ FitsSigned xs.length (signedNumber xs - signedNumber ys - (1 - p.carryBit)))
  /-- Decimal addition. -/
  addDecimal : p.get decimal = true → (∀ x ∈ xs, IsPacked x) → (∀ y ∈ ys, IsPacked y) →
    let r := chain variant p (each .adc (xs.zip ys))
    r.1.length = xs.length ∧ (∀ z ∈ r.1, IsPacked z) ∧
      decimalNumber r.1 = (decimalNumber xs + decimalNumber ys + p.carryBit) % 100 ^ xs.length ∧
      (r.2.get carry = true ↔ 100 ^ xs.length ≤ decimalNumber xs + decimalNumber ys + p.carryBit)
  /-- Decimal subtraction with borrow. -/
  subtractDecimal : p.get decimal = true → (∀ x ∈ xs, IsPacked x) → (∀ y ∈ ys, IsPacked y) →
    let r := chain variant p (each .sbc (xs.zip ys))
    r.1.length = xs.length ∧ (∀ z ∈ r.1, IsPacked z) ∧
      (decimalNumber r.1 : Int) =
        ((decimalNumber xs : Int) - decimalNumber ys - (1 - p.carryBit)) % (100 ^ xs.length : Nat) ∧
      (r.2.get carry = true ↔ decimalNumber ys + (1 - p.carryBit) ≤ decimalNumber xs)
  /-- Doubling, from the low byte up, with the bit shifted out in the carry. -/
  double :
    let r := chain variant p (firstThen .asl .rol (xs.zip ys))
    r.1.length = xs.length ∧ number r.1 = 2 * number xs % 256 ^ xs.length ∧
      (r.2.get carry = true ↔ 256 ^ xs.length ≤ 2 * number xs)
  /-- Halving, from the high byte down, with the bit shifted out in the carry. -/
  halve :
    let r := chain variant p (firstThen .lsr .ror (xs.zip ys).reverse)
    r.1.length = xs.length ∧ number r.1.reverse = number xs / 2 ∧
      (r.2.get carry = true ↔ number xs % 2 = 1)

section Specification

variable (variant : Variant) (p : Status) {xs ys : List UInt8}

theorem chain_sbc_decimal (hlen : ys.length = xs.length) (hdecimal : p.get decimal = true)
    (hxs : ∀ x ∈ xs, IsPacked x) (hys : ∀ y ∈ ys, IsPacked y) :
    let r := chain variant p (each .sbc (xs.zip ys))
    r.1.length = xs.length ∧ (∀ z ∈ r.1, IsPacked z) ∧
      (decimalNumber r.1 : Int) =
        ((decimalNumber xs : Int) - decimalNumber ys - (1 - p.carryBit)) % (100 ^ xs.length : Nat) ∧
      (r.2.get carry = true ↔ decimalNumber ys + (1 - p.carryBit) ≤ decimalNumber xs) := by
  intro r
  obtain ⟨hlength, hvalid, hvalue, hcarry⟩ :=
    (addsDigits_sbc_decimal variant).total (by decide) hlen hdecimal hxs hys
  have hcomplement := ofDigits_complement 100 (by decide) packedValue ys fun y hy =>
    packedValue_lt (hys y hy)
  rw [hlen] at hcomplement
  have hdifference := difference_of_total hcomplement hvalue
  exact ⟨hlength, hvalid, hdifference.1, hcarry.trans hdifference.2⟩

theorem chain_halve (hlen : ys.length = xs.length) (hne : xs ≠ []) :
    let r := chain variant p (firstThen .lsr .ror (xs.zip ys).reverse)
    r.1.length = xs.length ∧ number r.1.reverse = number xs / 2 ∧
      (r.2.get carry = true ↔ number xs % 2 = 1) := by
  intro r
  -- halving begins at the highest byte
  have hpairs : (xs.zip ys).reverse ≠ [] := by
    intro h
    have hzero := congrArg List.length h
    rw [List.length_reverse, length_zip_eq hlen] at hzero
    exact hne (List.length_eq_zero_iff.mp hzero)
  obtain ⟨hlength, hsum⟩ := chain_lsr_ror variant (p := p) hpairs
  rw [List.map_reverse, List.reverse_reverse, map_fst_zip_eq hlen] at hsum
  rw [List.length_reverse, length_zip_eq hlen] at hlength
  have hhalf : 2 * number r.1.reverse + r.2.carryBit = number xs := hsum
  have hc := r.2.carryBit_le_one
  exact ⟨hlength, by omega, (carryBit_eq_one_iff r.2).symm.trans (by omega)⟩

/-- Chains compute with numbers of any number of bytes. -/
theorem chain_specification (hlen : ys.length = xs.length) (hne : xs ≠ []) :
    Computes variant p xs ys where
  add hbinary := by
    obtain ⟨hlength, -, hvalue, hcarry⟩ := (addsDigits_adc_binary variant).total (by decide) hlen
      hbinary (fun _ _ => trivial) fun _ _ => trivial
    exact ⟨hlength, hvalue, hcarry, get_overflow_chain_adc variant hlen hne hbinary⟩
  subtract hbinary := by
    obtain ⟨hlength, hvalue, hcarry⟩ := chain_sbc_total variant hlen hbinary
    exact ⟨hlength, hvalue, hcarry, get_overflow_chain_sbc variant hlen hne hbinary⟩
  addDecimal hdecimal hxs hys :=
    (addsDigits_adc_decimal variant).total (by decide) hlen hdecimal hxs hys
  subtractDecimal hdecimal hxs hys := chain_sbc_decimal variant p hlen hdecimal hxs hys
  double := chain_asl_rol variant hlen hne
  halve := chain_halve variant p hlen hne

/-- The largest positive number of two bytes and one overflow into the sign; in decimal mode `9999`
and one leave nothing but the carry. -/
theorem chain_specification_twoBytes :
    ([0x01, 0x00] : List UInt8).length = ([0xFF, 0x7F] : List UInt8).length ∧
      ([0xFF, 0x7F] : List UInt8) ≠ [] ∧
      Computes .nmos Status.clear [0xFF, 0x7F] [0x01, 0x00] ∧
      (chain .nmos Status.clear (each .adc [(0xFF, 0x01), (0x7F, 0x00)])).1 = [0x00, 0x80] ∧
      (chain .nmos Status.clear (each .adc [(0xFF, 0x01), (0x7F, 0x00)])).2.get overflow = true ∧
      Computes .cmos (Status.clear.set decimal true) [0x99, 0x99] [0x01, 0x00] ∧
      (chain .cmos (Status.clear.set decimal true) (each .adc [(0x99, 0x01), (0x99, 0x00)])).1 =
        [0x00, 0x00] ∧
      (chain .cmos (Status.clear.set decimal true)
        (each .adc [(0x99, 0x01), (0x99, 0x00)])).2.get carry = true := by
  have hbinary : Computes .nmos Status.clear [0xFF, 0x7F] [0x01, 0x00] :=
    chain_specification .nmos Status.clear rfl (by decide)
  have hdecimal : Computes .cmos (Status.clear.set decimal true) [0x99, 0x99] [0x01, 0x00] :=
    chain_specification .cmos _ rfl (by decide)
  have hoverflow := (hbinary.add rfl).2.2.2.mpr (by decide)
  have hcarry := (hdecimal.addDecimal rfl (by simp [IsPacked]) (by simp [IsPacked])).2.2.2.mpr
    (by decide)
  exact ⟨rfl, by decide, hbinary, by decide, hoverflow, hdecimal, by decide, hcarry⟩

end Specification

end Bench65.Alu
