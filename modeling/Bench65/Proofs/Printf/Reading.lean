import Bench65.Proofs.Printf.Standard
import Mathlib.Tactic.Ring

/-!
# Reading an integer conversion specification

`readDirective_text`: whatever a format goes on with, an integer conversion specification is read
as one directive, with the flags, fields, length and conversion that its text names. Each reader
stops where its part ends, because the next part cannot start with a byte that would continue it;
the bytes a part can start with are bounded by numbers (`le_of_mem_head?_modifier` and the lemmas
after it).
-/

namespace Bench65

namespace Ascii

theorem toNat_char (b : UInt8) : (char b).toNat = b.toNat := by
  have hb := b.toNat_lt
  have hv : b.toNat.isValidChar := Or.inl (by omega)
  rw [char, Char.ofNat, dif_pos hv]
  rfl

/-- A byte is the code of no character above it. -/
theorem char_ne_of_lt {b : UInt8} {c : Char} (h : c.toNat < b.toNat) : char b ≠ c := by
  intro hc
  rw [← hc, toNat_char] at h
  exact absurd h (Nat.lt_irrefl _)

end Ascii

namespace Printf.Standard

/-! ### What is read -/

/-- The flags with some more. -/
def addFlags (f : Flags) (flags : List Flag) : Flags where
  left := f.left || Flag.minus ∈ flags
  plus := f.plus || Flag.plus ∈ flags
  space := f.space || Flag.space ∈ flags
  alternate := f.alternate || Flag.hash ∈ flags
  zero := f.zero || Flag.zero ∈ flags

/-- A number as a field of a directive, which has a limit. -/
def numberField (ds : List (Fin 10)) : Field :=
  .number (min (numberValue ds) fieldLimit)

/-- A width as a field of a directive. -/
def Width.field : Width → Field
  | digits ds _ => numberField ds
  | star => .argument

/-- A precision as a field of a directive. -/
def Precision.field : Precision → Option Field
  | absent => none
  | digits ds => some (numberField ds)
  | star => some .argument

/-- The size of argument that a length modifier selects. -/
def Modifier.length : Modifier → Length
  | hh => .char
  | absent | h | z | t => .int
  | l | j => .long

/-- What an integer conversion converts. -/
def Conversion.meaning : Conversion → Printf.Conversion
  | d | i => .signed
  | u => .unsigned
  | o => .octal
  | x => .hex false
  | X => .hex true

/-- A specification as a directive. -/
def Specification.directive (c : Specification) : Directive where
  flags := addFlags .none c.flags
  width := c.width.field
  precision := c.precision.field
  length := c.modifier.length
  conversion := c.conversion.meaning

/-! ### How the parts start -/

/-- Length modifiers and conversions are letters, which come after all other bytes of a
specification. -/
theorem le_of_mem_head?_modifier (m : Modifier) (c : Conversion) (rest : List UInt8) :
    ∀ b ∈ (m.text ++ c.byte :: rest).head?, 0x58 ≤ b := by
  intro b hb
  cases m <;> cases c <;> cases hb <;> decide

theorem le_of_mem_head?_precision (p : Precision) {s : List UInt8}
    (hs : ∀ b ∈ s.head?, 0x58 ≤ b) :
    ∀ b ∈ (p.text ++ s).head?, b = 0x2E ∨ 0x58 ≤ b := by
  intro b hb
  cases p with
  | absent => exact Or.inr (hs b hb)
  | digits ds =>
    cases hb
    exact Or.inl (by decide)
  | star =>
    cases hb
    exact Or.inl (by decide)

theorem digit_byte_bounds (d : Fin 10) :
    0x30 ≤ Ascii.byte (Nat.digitChar d.val) ∧ Ascii.byte (Nat.digitChar d.val) ≤ 0x39 := by
  revert d
  decide

theorem byte_digitChar_ne_zero {d : Fin 10} (h : d ≠ 0) :
    Ascii.byte (Nat.digitChar d.val) ≠ 0x30 := by
  revert d
  decide

theorem ne_of_mem_head?_width (w : Width) {s : List UInt8}
    (hs : ∀ b ∈ s.head?, b = 0x2E ∨ 0x58 ≤ b) :
    ∀ b ∈ (w.text ++ s).head?, b = 0x2A ∨ b = 0x2E ∨ 0x31 ≤ b := by
  intro b hb
  cases w with
  | star =>
    cases hb
    exact Or.inl (by decide)
  | digits ds leading =>
    cases ds with
    | nil =>
      rcases hs b hb with h | h
      · exact Or.inr (Or.inl h)
      · exact Or.inr (Or.inr (by
          rw [UInt8.le_iff_toNat_le] at h ⊢
          exact Nat.le_trans (by decide) h))
    | cons d ds =>
      cases hb
      -- a width has no zero in front, as that would be a flag
      have hd : d ≠ 0 := by
        rintro rfl
        exact leading 0 rfl rfl
      have hlow := (digit_byte_bounds d).1
      have hne := byte_digitChar_ne_zero hd
      refine Or.inr (Or.inr ?_)
      rw [UInt8.le_iff_toNat_le] at hlow ⊢
      rw [ne_eq, ← UInt8.toNat_inj] at hne
      simp only [UInt8.reduceToNat] at hlow hne ⊢
      omega

/-! ### Reading the parts -/

theorem add?_byte (f : Flags) (flag : Flag) : f.add? flag.byte = some (addFlags f [flag]) := by
  cases flag <;> simp [Flags.add?, Flag.byte, addFlags, Ascii.byte, Ascii.char]

theorem add?_eq_none {f : Flags} {b : UInt8} (h : b = 0x2A ∨ b = 0x2E ∨ 0x31 ≤ b) :
    f.add? b = none := by
  rcases h with rfl | rfl | h
  · rfl
  · rfl
  · have hb : 0x31 ≤ b.toNat := UInt8.le_iff_toNat_le.mp h
    -- the last of the flags is the digit zero
    unfold Flags.add?
    split
    case h_6 => rfl
    all_goals
      rename_i hc
      exact absurd hc (Ascii.char_ne_of_lt (Nat.lt_of_lt_of_le (by decide) hb))

theorem addFlags_addFlags (f : Flags) (flag : Flag) (flags : List Flag) :
    addFlags (addFlags f [flag]) flags = addFlags f (flag :: flags) := by
  simp [addFlags, Bool.or_assoc]

theorem readFlags_flags (f : Flags) (flags : List Flag) {s : List UInt8}
    (hs : ∀ b ∈ s.head?, b = 0x2A ∨ b = 0x2E ∨ 0x31 ≤ b) :
    readFlags f (flags.map Flag.byte ++ s) = (addFlags f flags, s) := by
  induction flags generalizing f with
  | nil =>
    have hf : addFlags f [] = f := by simp [addFlags]
    rw [List.map_nil, List.nil_append, hf]
    cases s with
    | nil => rfl
    | cons b s =>
      rw [readFlags, add?_eq_none (hs b rfl)]
  | cons flag flags ih =>
    rw [List.map_cons, List.cons_append, readFlags, add?_byte]
    show readFlags (addFlags f [flag]) (flags.map Flag.byte ++ s) = _
    rw [ih, addFlags_addFlags]

theorem digitValue?_byte (d : Fin 10) :
    Ascii.digitValue? (Ascii.byte (Nat.digitChar d.val)) = some d.val := by
  revert d
  decide

theorem digitValue?_eq_none {b : UInt8} (h : b = 0x2E ∨ 0x58 ≤ b) :
    Ascii.digitValue? b = none := by
  rcases h with rfl | h
  · rfl
  · have hb : 0x58 ≤ b.toNat := UInt8.le_iff_toNat_le.mp h
    have hnine : ¬ b ≤ 0x39 := fun h9 =>
      absurd (Nat.le_trans hb (UInt8.le_iff_toNat_le.mp h9)) (by decide)
    simp [Ascii.digitValue?, hnine]

/-- Once the limit is reached, more digits change nothing. -/
theorem min_add_mul_min (limit v n k : Nat) :
    min (v + 10 ^ k * min n limit) limit = min (v + 10 ^ k * n) limit := by
  rcases Nat.le_total n limit with hle | hge
  · rw [Nat.min_eq_left hle]
  · have hlimit : limit ≤ 10 ^ k * limit := Nat.le_mul_of_pos_left _ (by positivity)
    have hmono : 10 ^ k * limit ≤ 10 ^ k * n := Nat.mul_le_mul_left _ hge
    rw [Nat.min_eq_right hge, Nat.min_eq_right (by omega), Nat.min_eq_right (by omega)]

theorem readNumber_numberText {n : Nat} (hn : n ≤ fieldLimit) (ds : List (Fin 10)) {s : List UInt8}
    (hs : ∀ b ∈ s.head?, b = 0x2E ∨ 0x58 ≤ b) :
    readNumber n (numberText ds ++ s) =
      (min (numberValue ds + 10 ^ ds.length * n) fieldLimit, s) := by
  induction ds generalizing n with
  | nil =>
    have h0 : numberValue [] + 10 ^ ([] : List (Fin 10)).length * n = n := by simp [numberValue]
    rw [h0, Nat.min_eq_left hn]
    cases s with
    | nil => rfl
    | cons b s =>
      show readNumber n (b :: s) = _
      rw [readNumber, digitValue?_eq_none (hs b rfl)]
  | cons d ds ih =>
    -- what has been read is shifted by every digit to come
    show readNumber n (Ascii.byte (Nat.digitChar d.val) :: (numberText ds ++ s)) = _
    rw [readNumber, digitValue?_byte]
    show readNumber (min (10 * n + d.val) fieldLimit) (numberText ds ++ s) = _
    have hv : numberValue (d :: ds) = numberValue ds + 10 ^ ds.length * d.val := by
      simp [numberValue, Nat.ofDigits_append]
    rw [ih (Nat.min_le_right _ _), min_add_mul_min, hv, List.length_cons]
    ring_nf

theorem readField_numberText (ds : List (Fin 10)) {s : List UInt8}
    (hs : ∀ b ∈ s.head?, b = 0x2E ∨ 0x58 ≤ b) :
    readField (numberText ds ++ s) = (numberField ds, s) := by
  have hn := readNumber_numberText (Nat.zero_le _) ds hs
  rw [Nat.mul_zero, Nat.add_zero] at hn
  cases hcs : numberText ds ++ s with
  | nil =>
    rw [hcs, readNumber] at hn
    obtain ⟨hv, rfl⟩ := Prod.mk.inj hn
    rw [readField, numberField, ← hv]
  | cons b rest =>
    -- neither a digit nor what follows the digits is a star
    have hstar : b ≠ Ascii.byte '*' := by
      cases ds with
      | nil =>
        have hb := hs b (by rw [show s = b :: rest from hcs]; rfl)
        rcases hb with rfl | h
        · decide
        · rintro rfl
          exact absurd h (by decide)
      | cons d ds =>
        have hd : Ascii.byte (Nat.digitChar d.val) = b := (List.cons.inj hcs).1
        rintro rfl
        exact absurd (hd ▸ (digit_byte_bounds d).1) (by decide)
    rw [readField, if_neg hstar, ← hcs, hn, numberField]

theorem readField_width (w : Width) {s : List UInt8} (hs : ∀ b ∈ s.head?, b = 0x2E ∨ 0x58 ≤ b) :
    readField (w.text ++ s) = (w.field, s) := by
  cases w with
  | digits ds leading => exact readField_numberText ds hs
  | star => rfl

theorem readPrecision_text (p : Precision) {s : List UInt8} (hs : ∀ b ∈ s.head?, 0x58 ≤ b) :
    readPrecision (p.text ++ s) = (p.field, s) := by
  have hs' : ∀ b ∈ s.head?, b = 0x2E ∨ 0x58 ≤ b := fun b hb => Or.inr (hs b hb)
  cases p with
  | absent =>
    show readPrecision s = (none, s)
    cases s with
    | nil => rfl
    | cons b s =>
      have hb : b ≠ Ascii.byte '.' := by
        rintro rfl
        exact absurd (hs _ rfl) (by decide)
      rw [readPrecision, if_neg hb]
  | digits ds =>
    show readPrecision (Ascii.byte '.' :: (numberText ds ++ s)) = _
    rw [readPrecision, if_pos rfl, readField_numberText ds hs']
    rfl
  | star => rfl

theorem readLength_text (m : Modifier) (c : Conversion) (s : List UInt8) :
    readLength (m.text ++ c.byte :: s) = (m.length, c.byte :: s) := by
  cases m <;> cases c <;> rfl

theorem ofByte_byte (c : Conversion) : Printf.Conversion.ofByte c.byte = c.meaning := by
  cases c <;> rfl

/-! ### Reading the whole -/

/-- A specification is read as its directive, and nothing behind it is touched. -/
theorem readDirective_text (c : Specification) (s : List UInt8) :
    readDirective (c.flags.map Flag.byte ++ (c.width.text ++ (c.precision.text ++
      (c.modifier.text ++ c.conversion.byte :: s)))) = (c.directive, s) := by
  have hm := le_of_mem_head?_modifier c.modifier c.conversion s
  have hp := le_of_mem_head?_precision c.precision hm
  have hw := ne_of_mem_head?_width c.width hp
  simp only [readDirective, readFlags_flags .none c.flags hw, readField_width c.width hp,
    readPrecision_text c.precision hm, readLength_text, readConversion, ofByte_byte]
  rfl

/-- A format that is a single specification has a single piece. -/
theorem pieces_text (c : Specification) : pieces c.text = [.directive c.directive] := by
  rw [Specification.text, pieces, if_pos rfl, readDirective_text c [], pieces]

end Printf.Standard

end Bench65
