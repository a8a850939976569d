import Bench65.Proofs.Printf.Reading
import Bench65.Proofs.Printf.Rendering
import Mathlib.Data.Nat.Digits.Lemmas

/-!
# Integer conversions

`format_specification`: a format that consists of one integer conversion specification takes the
arguments of its stars and then the argument of its conversion, each of the size its part of the
specification asks for, and yields what the C standard prescribes for them if a buffer can hold it.
The statement is an equation between computations, so it holds for every source of arguments,
failing ones included.

The renderer works with numerals that are never empty and cuts the digit of zero away; the standard
starts from no digits and adds one. `Style.digits_eq_leftpad` reconciles the two, and
`Style.octal_digits_eq_leftpad` does so for the alternate octal form, where the renderer puts a zero
in front and the standard raises the precision. A field of the renderer has a limit, and one of the
standard has none, but a field at the limit is longer than any buffer (`ite_saturated`).
-/

namespace Bench65

/-! ### Numerals and digits -/

namespace Numeral

theorem digits_eq_reverse {base n : Nat} (hb : 2 ≤ base) (hn : n ≠ 0) :
    digits base n = (Nat.digits base n).reverse := by
  suffices h : ∀ fuel n, n ≤ fuel → n ≠ 0 →
      digitsFrom base fuel n [] = (Nat.digits base n).reverse from h n n (Nat.le_refl n) hn
  -- the fuel is the number itself and outlasts its quotients
  intro fuel
  induction fuel with
  | zero =>
    intro n hle hn
    exact absurd (Nat.le_zero.mp hle) hn
  | succ fuel ih =>
    intro n hle hn
    rw [digitsFrom]
    split_ifs with h
    · have hlt : n < base := h.resolve_left (by omega)
      rw [Nat.digits_of_lt base n hn hlt, List.reverse_singleton]
    · have hge : base ≤ n := by omega
      have hdiv : n / base < n := Nat.div_lt_self (by omega) (by omega)
      have hpos : n / base ≠ 0 := Nat.ne_of_gt (Nat.div_pos hge (by omega))
      rw [digitsFrom_eq_append, ih (n / base) (by omega) hpos,
        Nat.digits_def' (by omega) (Nat.pos_of_ne_zero hn), List.reverse_cons]

end Numeral

namespace Printf

/-- The significant digits of a number, none for zero. -/
def significantBytes (upper : Bool) (base n : Nat) : List UInt8 :=
  (Nat.digits base n).reverse.map (Numeral.digitByte upper)

theorem significantBytes_zero (upper : Bool) (base : Nat) : significantBytes upper base 0 = [] := by
  simp [significantBytes]

theorem numeral_bytes_eq {upper : Bool} {base n : Nat} (hb : 2 ≤ base) (hn : n ≠ 0) :
    Numeral.bytes upper base n = significantBytes upper base n := by
  rw [Numeral.bytes, Numeral.digits_eq_reverse hb hn, significantBytes]

/-- The renderer's digits by the standard's rule: the precision is one unless given. -/
theorem Style.digits_eq_leftpad (style : Style) (upper : Bool) {base : Nat} (hb : 2 ≤ base)
    (n : Nat) :
    style.digits upper base n =
      (significantBytes upper base n).leftpad (style.precision.getD 1) (Ascii.byte '0') := by
  rw [Style.digits]
  by_cases hn : n = 0
  · rw [hn, significantBytes_zero]
    have hzero : Numeral.bytes upper base 0 = [Ascii.byte '0'] := rfl
    rw [hzero]
    cases hp : style.precision with
    | none => rfl
    | some p =>
      cases p with
      | zero => rfl
      | succ p =>
        rw [if_neg (by simp)]
        simp [List.leftpad, List.replicate_succ']
  · rw [if_neg (fun h => hn h.1), numeral_bytes_eq hb hn]
    cases hp : style.precision with
    | some p => rfl
    | none =>
      -- the numeral of a positive number has the one digit that the default precision asks for
      have hlen : 1 ≤ (significantBytes upper base n).length := by
        rw [significantBytes, List.length_map, List.length_reverse]
        exact List.length_pos_iff.mpr (Nat.digits_ne_nil_iff_ne_zero.mpr hn)
      simp [List.leftpad, Nat.sub_eq_zero_of_le hlen]

theorem byte_zero_ne_of_digit {upper : Bool} {d : Nat} (hd : d < 16) (h0 : d ≠ 0) :
    Numeral.digitByte upper d ≠ Ascii.byte '0' := by
  have h : ∀ upper, ∀ d : Fin 16, d.val ≠ 0 → Numeral.digitByte upper d ≠ Ascii.byte '0' := by
    decide
  exact h upper ⟨d, hd⟩ h0

/-- A numeral does not start with the digit zero. -/
theorem head?_significantBytes {base n : Nat} (hb : 2 ≤ base) (hb' : base ≤ 16) (upper : Bool) :
    (significantBytes upper base n).head? ≠ some (Ascii.byte '0') := by
  rw [significantBytes, List.head?_map, List.head?_reverse]
  intro h
  obtain ⟨d, hd, hbyte⟩ := Option.map_eq_some_iff.mp h
  have hmem : d ∈ Nat.digits base n := List.mem_of_getLast? hd
  have hne : Nat.digits base n ≠ [] := List.ne_nil_of_mem hmem
  have hlast : (Nat.digits base n).getLast hne = d := by
    rw [List.getLast?_eq_some_getLast hne] at hd
    exact Option.some.inj hd
  have hd0 : d ≠ 0 := by
    rw [← hlast]
    exact Nat.getLast_digit_ne_zero base (Nat.digits_ne_nil_iff_ne_zero.mp hne)
  exact byte_zero_ne_of_digit (Nat.lt_of_lt_of_le (Nat.digits_lt_base hb hmem) hb') hd0 hbyte

/-- Putting a zero in front unless there is one is raising the least number of digits by as much
as the first digit needs to be a zero. -/
theorem Style.octal_digits_eq_leftpad (style : Style) (n : Nat) :
    (if (style.digits false 8 n).head? ≠ some (Ascii.byte '0') then
        Ascii.byte '0' :: style.digits false 8 n
      else style.digits false 8 n) =
    (significantBytes false 8 n).leftpad
      (max (style.precision.getD 1) ((significantBytes false 8 n).length + 1))
      (Ascii.byte '0') := by
  rw [style.digits_eq_leftpad false (by decide)]
  set ds := significantBytes false 8 n with hds
  set p := style.precision.getD 1
  rw [List.leftpad, List.leftpad]
  -- without padding the first digit is significant, with padding it is a zero already
  by_cases hp : p ≤ ds.length
  · have hhead : ds.head? ≠ some (Ascii.byte '0') :=
      head?_significantBytes (by decide) (by decide) false
    rw [Nat.sub_eq_zero_of_le hp, List.replicate_zero, List.nil_append, if_pos hhead,
      max_eq_right (by omega), Nat.add_sub_cancel_left]
    rfl
  · obtain ⟨k, hk⟩ : ∃ k, p - ds.length = k + 1 := ⟨p - ds.length - 1, by omega⟩
    rw [hk, max_eq_left (by omega), hk, if_neg]
    simp [List.replicate_succ]

/-! ### The field -/

theorem Style.padNumber_eq (style : Style) (mark digits : List UInt8) :
    style.padNumber mark digits =
      if style.flags.left then (mark ++ digits).rightpad style.width (Ascii.byte ' ')
      else if style.flags.zero && style.precision.isNone then
        mark ++ digits.leftpad (style.width - mark.length) (Ascii.byte '0')
      else (mark ++ digits).leftpad style.width (Ascii.byte ' ') := by
  simp only [Style.padNumber, Style.fill, List.leftpad, List.rightpad, List.length_append,
    List.append_assoc, Nat.sub_sub]

theorem Style.length_padNumber (style : Style) (mark digits : List UInt8) :
    (style.padNumber mark digits).length = max style.width (mark.length + digits.length) := by
  rw [style.padNumber_eq]
  split_ifs
  · rw [List.length_rightpad, List.length_append]
  · rw [List.length_append, List.length_leftpad]
    omega
  · rw [List.length_leftpad, List.length_append]

theorem Style.precision_le_length_digits (style : Style) (upper : Bool) (base n : Nat) :
    style.precision.getD 0 ≤ (style.digits upper base n).length := by
  rw [Style.digits]
  split_ifs with h
  · rw [h.2]
    exact Nat.zero_le _
  · rw [List.length_leftpad]
    exact Nat.le_max_left _ _

/-- A number is as long as its width and its precision ask for. -/
theorem Style.least_le_length_padNumber {style : Style} {digits : List UInt8}
    (h : style.precision.getD 0 ≤ digits.length) (mark : List UInt8) :
    style.least ≤ (style.padNumber mark digits).length := by
  rw [style.length_padNumber, Style.least]
  omega

/-! ### Signed numbers -/

theorem signedWord_eq_bmod (w : UInt16) : signedWord w = (w.toNat : Int).bmod (2 ^ 16) := by
  have hw := w.toNat_lt
  rw [signedWord, Int.bmod_def]
  simp only [UInt16.lt_iff_toNat_lt, UInt16.reduceToNat]
  split_ifs <;> omega

theorem signedByte_eq_bmod (b : UInt8) : signedByte b = (b.toNat : Int).bmod (2 ^ 8) := by
  have hb := b.toNat_lt
  rw [signedByte, isNegative, Int.bmod_def]
  simp only [decide_eq_true_eq, UInt8.le_iff_toNat_le, UInt8.reduceToNat]
  split_ifs <;> omega

theorem signedLong_eq_bmod (n : UInt32) : signedLong n = (n.toNat : Int).bmod (2 ^ 32) := by
  have hn := n.toNat_lt
  rw [signedLong, Int.bmod_def]
  simp only [UInt32.lt_iff_toNat_lt, UInt32.reduceToNat]
  split_ifs <;> omega

theorem signedWord_eq_toInt (w : UInt16) : signedWord w = w.toInt16.toInt := by
  rw [signedWord_eq_bmod]
  exact (BitVec.toInt_eq_toNat_bmod w.toBitVec).symm

namespace Standard

/-! ### Values and styles -/

/-- The renderer's style for the numbers of the width and the precision. -/
def Specification.style (c : Specification) (width : Int) (precision : Option Int) : Style where
  flags := { addFlags .none c.flags with left := c.isLeft width }
  width := width.natAbs
  precision := givenPrecision precision

section Style

variable (c : Specification) (width : Int) (precision : Option Int)

@[simp]
theorem style_plus : (c.style width precision).flags.plus = decide (Flag.plus ∈ c.flags) := by
  simp [Specification.style, addFlags, Flags.none]

@[simp]
theorem style_space : (c.style width precision).flags.space = decide (Flag.space ∈ c.flags) := by
  simp [Specification.style, addFlags, Flags.none]

@[simp]
theorem style_alternate :
    (c.style width precision).flags.alternate = decide (Flag.hash ∈ c.flags) := by
  simp [Specification.style, addFlags, Flags.none]

@[simp]
theorem style_zero : (c.style width precision).flags.zero = decide (Flag.zero ∈ c.flags) := by
  simp [Specification.style, addFlags, Flags.none]

end Style

/-- A negative width adds the flag that flushes left. -/
theorem addFlags_of_width (c : Specification) (w : Int) :
    (if w < 0 then { addFlags .none c.flags with left := true } else addFlags .none c.flags) =
      { addFlags .none c.flags with left := c.isLeft w } := by
  by_cases hw : w < 0
  · simp [hw, Specification.isLeft]
  · simp [hw, Specification.isLeft, addFlags, Flags.none]

theorem givenPrecision_some (p : Int) :
    givenPrecision (some p) = if p < 0 then none else some p.toNat := by
  by_cases hp : p < 0
  · have hp' : ¬ 0 ≤ p := by omega
    simp [givenPrecision, Option.filter, hp, hp']
  · have hp' : 0 ≤ p := by omega
    simp [givenPrecision, Option.filter, hp, hp']

theorem givenPrecision_none : givenPrecision none = none := rfl

/-- A number as far as a field of the renderer can hold it. -/
def saturated (n : Int) : Int :=
  min n fieldLimit

theorem saturated_of_le {n : Int} (h : n ≤ fieldLimit) : saturated n = n :=
  Int.min_eq_left h

theorem saturated_ofNat (n : Nat) : saturated n = (min n fieldLimit : Nat) := by
  rw [saturated, Nat.cast_min]

/-- A number from a star is small. -/
theorem saturated_toInt (w : UInt16) : saturated w.toInt16.toInt = w.toInt16.toInt := by
  refine saturated_of_le ?_
  have hlt := w.toInt16.toInt_lt
  have hlimit : (2 : Int) ^ 15 ≤ fieldLimit := by decide
  omega

section Arguments

variable {ε σ : Type} (source : Source ε σ)

/-- The renderer takes the numbers of width and precision in their order. -/
theorem style_directive (c : Specification) :
    c.directive.style source = (do
      let width ← c.width.take source
      let precision ← c.precision.take source
      pure (c.style (saturated width) (precision.map saturated))) := by
  simp only [Directive.style, Specification.directive, Specification.style]
  cases c.width <;> cases c.precision <;>
    simp [Width.field, Width.take, Precision.field, Precision.take, numberField,
      signedWord_eq_toInt, ← addFlags_of_width, givenPrecision_none, givenPrecision_some,
      saturated_ofNat, saturated_toInt, Int.not_ofNat_neg, -Nat.cast_min]

theorem nextSigned_length (m : Modifier) :
    nextSigned source m.length = (do
      let argument ← m.take source
      pure ((argument : Int).bmod (2 ^ m.bits))) := by
  -- of an `int` passed for a `char` only the low byte counts
  have hbyte (n : Nat) : ((n : Int) % 256).bmod 256 = (n : Int).bmod 256 := Int.emod_bmod n 256
  cases m <;>
    simp [nextSigned, Modifier.length, Modifier.take, Modifier.bits, signedWord_eq_bmod,
      signedByte_eq_bmod, signedLong_eq_bmod, hbyte]

theorem nextUnsigned_length (m : Modifier) :
    nextUnsigned source m.length = (do
      let argument ← m.take source
      pure (argument % 2 ^ m.bits)) := by
  cases m <;> simp [nextUnsigned, Modifier.length, Modifier.take, Modifier.bits]

end Arguments

/-! ### The standard's parts, as the renderer has them -/

theorem value_of_isSigned {c : Specification} (h : c.conversion.isSigned = true) (argument : Nat) :
    c.value argument = (argument : Int).bmod (2 ^ c.modifier.bits) := by
  rw [Specification.value, h]
  rfl

theorem natAbs_value {c : Specification} (h : c.conversion.isSigned = false) (argument : Nat) :
    (c.value argument).natAbs = argument % 2 ^ c.modifier.bits := by
  rw [Specification.value, h]
  rfl

/-- Whether a conversion writes capital letters. -/
def Conversion.isUpper (c : Conversion) : Bool :=
  c = .X

theorem digit_eq_digitByte (c : Conversion) {d : Nat} (hd : d < 16) :
    c.digit d = Numeral.digitByte c.isUpper d := by
  have h : ∀ d : Fin 16, c.digit d = Numeral.digitByte c.isUpper d := by
    cases c <;> decide
  exact h ⟨d, hd⟩

theorem base_bounds (c : Conversion) : 2 ≤ c.base ∧ c.base ≤ 16 := by
  cases c <;> decide

theorem significant_eq (c : Specification) (v : Int) :
    c.significant v = significantBytes c.conversion.isUpper c.conversion.base v.natAbs := by
  obtain ⟨hb, hb'⟩ := base_bounds c.conversion
  rw [Specification.significant, significantBytes]
  refine List.map_congr_left fun d hd => digit_eq_digitByte _ ?_
  exact Nat.lt_of_lt_of_le (Nat.digits_lt_base hb (List.mem_reverse.mp hd)) hb'

/-- The standard's digits are the renderer's digits, with a zero in front where an alternate octal
form lacks it. -/
theorem digits_eq (c : Specification) (width : Int) (precision : Option Int) (v : Int) :
    c.digits (givenPrecision precision) v =
      let shown := (c.style width precision).digits c.conversion.isUpper c.conversion.base v.natAbs
      if (Flag.hash ∈ c.flags ∧ c.conversion = .o) ∧ shown.head? ≠ some (Ascii.byte '0') then
        Ascii.byte '0' :: shown
      else shown := by
  set style := c.style width precision with hstyle
  have hp : style.precision = givenPrecision precision := rfl
  rw [Specification.digits, significant_eq, Specification.leastDigits, significant_eq]
  by_cases ho : Flag.hash ∈ c.flags ∧ c.conversion = .o
  · have hd := style.octal_digits_eq_leftpad v.natAbs
    rw [hp] at hd
    simp only [ho, true_and, ite_true]
    exact hd.symm
  · rw [if_neg ho]
    simp only [ho, false_and, if_false]
    rw [style.digits_eq_leftpad _ (base_bounds c.conversion).1, hp]

/-- What is prescribed is what the renderer makes of the standard's mark and digits. -/
theorem prescribed_eq_padNumber (c : Specification) (width : Int) (precision : Option Int)
    (argument : Nat) :
    c.prescribed width precision argument =
      (c.style width precision).padNumber (c.mark (c.value argument))
        (c.digits (givenPrecision precision) (c.value argument)) := by
  rw [Style.padNumber_eq]
  simp [Specification.prescribed, Specification.style, addFlags, Flags.none]

/-- A number as the renderer shows it for a conversion. -/
def shown (style : Style) (conversion : Conversion) (v : Int) : List UInt8 :=
  match conversion with
  | .d | .i => style.signed v
  | .u => style.unsigned v.natAbs
  | .o => style.octal v.natAbs
  | .x => style.hex false v.natAbs
  | .X => style.hex true v.natAbs

theorem prescribed_eq_shown (c : Specification) (width : Int) (precision : Option Int)
    (argument : Nat) :
    c.prescribed width precision argument =
      shown (c.style width precision) c.conversion (c.value argument) := by
  have hminus : Ascii.bytes "-" = [Ascii.byte '-'] := rfl
  have hplus : Ascii.bytes "+" = [Ascii.byte '+'] := rfl
  have hblank : Ascii.bytes " " = [Ascii.byte ' '] := rfl
  have hlower : Ascii.bytes "0x" = [Ascii.byte '0', Ascii.byte 'x'] := rfl
  have hupper : Ascii.bytes "0X" = [Ascii.byte '0', Ascii.byte 'X'] := rfl
  rw [prescribed_eq_padNumber, digits_eq c width]
  cases hc : c.conversion <;>
    simp [shown, Specification.mark, hc, Conversion.isUpper, Conversion.base, Style.signed,
      Style.sign, Style.unsigned, Style.octal, Style.hex, hminus, hplus, hblank, hlower, hupper]

/-! ### Lengths -/

theorem least_le_length_shown (style : Style) (conversion : Conversion) (v : Int) :
    style.least ≤ (shown style conversion v).length := by
  have hdigits := style.precision_le_length_digits
  cases conversion with
  | d | i => exact Style.least_le_length_padNumber (hdigits false 10 _) _
  | u => exact Style.least_le_length_padNumber (hdigits false 10 _) _
  | x => exact Style.least_le_length_padNumber (hdigits false 16 _) _
  | X => exact Style.least_le_length_padNumber (hdigits true 16 _) _
  | o =>
    refine Style.least_le_length_padNumber ?_ _
    -- a zero in front only makes it longer
    split
    · exact Nat.le_succ_of_le (hdigits false 8 _)
    · exact hdigits false 8 _

/-- A width or precision at the limit asks for more than a buffer can hold. -/
theorem capacity_lt_length_prescribed (c : Specification) {width : Int} {precision : Option Int}
    (h : fieldLimit ≤ width ∨ ∃ p : Int, precision = some p ∧ fieldLimit ≤ p) (argument : Nat) :
    capacity < (c.prescribed width precision argument).length := by
  have hlimit : capacity < fieldLimit := by decide
  have hleast : fieldLimit ≤ (c.style width precision).least := by
    rw [Style.least]
    rcases h with hwidth | ⟨p, rfl, hp⟩
    · have : (c.style width precision).width = width.natAbs := rfl
      omega
    · have hgiven : (c.style width (some p)).precision = some p.toNat := by
        show givenPrecision (some p) = _
        rw [givenPrecision_some, if_neg (by omega)]
      rw [hgiven, Option.getD_some]
      omega
  rw [prescribed_eq_shown]
  exact hlimit.trans_le (hleast.trans (least_le_length_shown _ _ _))

/-- What a field of the renderer cannot hold does not matter, since the result is too long all the
same. -/
theorem ite_saturated {α : Type} (c : Specification) (width : Int) (precision : Option Int)
    (argument : Nat) (f : List UInt8 → α) (a : α) :
    (if (c.prescribed (saturated width) (precision.map saturated) argument).length ≤ capacity then
        f (c.prescribed (saturated width) (precision.map saturated) argument) else a) =
      if (c.prescribed width precision argument).length ≤ capacity then
        f (c.prescribed width precision argument) else a := by
  -- a field beyond the limit is too long either way, and one below it is not saturated
  by_cases hlarge : fieldLimit ≤ width ∨ ∃ p : Int, precision = some p ∧ fieldLimit ≤ p
  · have hlarge' : fieldLimit ≤ saturated width ∨
        ∃ p : Int, precision.map saturated = some p ∧ fieldLimit ≤ p := by
      rcases hlarge with hwidth | ⟨p, rfl, hp⟩
      · exact .inl (Int.le_min.mpr ⟨hwidth, Int.le_refl _⟩)
      · exact .inr ⟨_, rfl, Int.le_min.mpr ⟨hp, Int.le_refl _⟩⟩
    rw [if_neg (Nat.not_le.mpr (capacity_lt_length_prescribed c hlarge' argument)),
      if_neg (Nat.not_le.mpr (capacity_lt_length_prescribed c hlarge argument))]
  · rw [not_or] at hlarge
    obtain ⟨hwidth, hprecision⟩ := hlarge
    have hsame : precision.map saturated = precision := by
      cases precision with
      | none => rfl
      | some p =>
        have hp : ¬ fieldLimit ≤ p := fun hp => hprecision ⟨p, rfl, hp⟩
        rw [Option.map_some, saturated_of_le (by omega)]
    rw [saturated_of_le (by omega), hsame]

/-! ### The main result -/

section Format

variable {ε σ : Type} (source : Source ε σ)

/-- The directive of a specification shows its argument in its style, if a buffer can hold it. -/
theorem render_directive_shown (c : Specification) (written : Nat) :
    c.directive.render source written = (do
      let style ← c.directive.style source
      let argument ← c.modifier.take source
      confined style.least fun _ => shown style c.conversion (c.value argument)) := by
  unfold Directive.render
  cases hc : c.conversion with
  | d | i =>
    have hv := value_of_isSigned (c := c) (by rw [hc]; rfl)
    simp [Specification.directive, Conversion.meaning, hc, nextSigned_length, shown, hv]
  | u | o | x | X =>
    have hv := natAbs_value (c := c) (by rw [hc]; rfl)
    simp [Specification.directive, Conversion.meaning, hc, nextUnsigned_length, shown, hv]

/-- A number is shown in its style if a buffer can hold it. -/
theorem confined_shown (style : Style) (conversion : Conversion) (v : Int) :
    (confined style.least fun _ => shown style conversion v : Rendering ε σ (List UInt8)) =
      if (shown style conversion v).length ≤ capacity then pure (shown style conversion v)
      else throw .tooLong :=
  confined_eq (least_le_length_shown style conversion v)

/-- Rendering the directive of a specification. -/
theorem render_directive (c : Specification) (written : Nat) :
    c.directive.render source written = (do
      let width ← c.width.take source
      let precision ← c.precision.take source
      let argument ← c.modifier.take source
      let text := c.prescribed width precision argument
      if text.length ≤ capacity then pure text else throw .tooLong) := by
  rw [render_directive_shown, style_directive]
  simp only [bind_assoc, pure_bind, confined_shown, ← prescribed_eq_shown, ite_saturated]

/-- **Integer conversions.** A format that is one integer conversion specification takes the
arguments its stars and its conversion ask for, in order, and yields what the standard
prescribes. Only a result that no buffer can hold is given up. -/
theorem format_specification (c : Specification) :
    format source c.text = (do
      let width ← c.width.take source
      let precision ← c.precision.take source
      let argument ← c.modifier.take source
      let text := c.prescribed width precision argument
      if text.length ≤ capacity then pure text else throw .tooLong) := by
  rw [format, pieces_text, renderPieces_singleton]
  exact render_directive source c 0

/-- The lowest `char` in a field of eight, filled with zeros behind the sign. -/
example : (⟨[.zero, .hash], .star, .absent, .hh, .d⟩ : Specification).prescribed 8 none 0x80 =
    Ascii.bytes "-0000128" := by
  decide

end Format

end Standard

end Printf

end Bench65
