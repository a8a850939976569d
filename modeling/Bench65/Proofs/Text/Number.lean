import Bench65.Proofs.Text.Hex
import Bench65.Text.Blank
import Mathlib.Data.List.Forall2
import Mathlib.Data.Nat.Digits.Defs

/-!
# Reading hexadecimal numbers

`read?_eq_some_iff`: a text is read as a number if and only if it is an optional plus sign and
digits of either case that denote the number (`IsNumber`), and the number is not above the limit.
There may be any number of zeros in front.
-/

namespace Bench65.Number

/-- A hexadecimal digit, of either case. -/
def HexDigit (c : Char) (d : Nat) : Prop :=
  "0123456789abcdef".toList[d]? = some c ∨ "0123456789ABCDEF".toList[d]? = some c

instance (c : Char) (d : Nat) : Decidable (HexDigit c d) :=
  inferInstanceAs (Decidable (_ ∨ _))

variable {c : Char} {d n v limit : Nat} {s : List Char} {ds : List Nat}

/-- What is claimed of all digits can be tried on the 32 there are. -/
theorem HexDigit.elim {p : Char → Nat → Bool} (h : HexDigit c d)
    (hall : ∀ s ∈ ["0123456789abcdef", "0123456789ABCDEF"], ∀ d < 16,
      (s.toList[d]?).all (p · d) = true) : p c d = true := by
  rcases h with h | h
  · have hlt : d < 16 := (List.getElem?_eq_some_iff.mp h).1
    have hd := hall "0123456789abcdef" (by decide) d hlt
    rwa [h] at hd
  · have hlt : d < 16 := (List.getElem?_eq_some_iff.mp h).1
    have hd := hall "0123456789ABCDEF" (by decide) d hlt
    rwa [h] at hd

/-- A digit is none of the characters that delimit numbers in a label file. -/
theorem HexDigit.is_digit (h : HexDigit c d) : isBlank c = false ∧ c ≠ ':' ∧ c ≠ '+' := by
  have hall := h.elim (p := fun c _ => !isBlank c && c != ':' && c != '+') (by decide +kernel)
  simpa [and_assoc] using hall

theorem toNat_lt_of_digitValue? (h : digitValue? 16 c = some d) : c.toNat < 128 := by
  unfold digitValue? at h
  dsimp only at h
  rw [Option.ite_none_right_eq_some] at h
  have hlt := h.1
  split_ifs at hlt with hdecimal hlower hupper
  · have hle : c.toNat ≤ '9'.toNat := hdecimal.2
    exact Nat.lt_of_le_of_lt hle (by decide)
  · have hle : c.toNat ≤ 'f'.toNat := hlower.2
    exact Nat.lt_of_le_of_lt hle (by decide)
  · have hle : c.toNat ≤ 'F'.toNat := hupper.2
    exact Nat.lt_of_le_of_lt hle (by decide)
  · exact absurd hlt (Nat.lt_irrefl 16)

theorem digitValue?_eq_some_iff : digitValue? 16 c = some d ↔ HexDigit c d := by
  constructor
  · intro h
    have hascii : ∀ n : Fin 128, ∀ d ∈ digitValue? 16 (Char.ofNat n),
        HexDigit (Char.ofNat n) d := by
      decide +kernel
    have hdigit := hascii ⟨c.toNat, toNat_lt_of_digitValue? h⟩
    rw [Char.ofNat_toNat] at hdigit
    exact hdigit d h
  · intro h
    have hall := h.elim (p := fun c d => digitValue? 16 c == some d) (by decide +kernel)
    exact eq_of_beq hall

/-- Digits are read as the number that they denote, unless it is above the limit. -/
theorem readDigits_eq_some_iff (hn : n ≤ limit) : readDigits 16 limit n s = some v ↔
    ∃ ds, List.Forall₂ HexDigit s ds ∧ ds.foldl (fun n d => 16 * n + d) n = v ∧ v ≤ limit := by
  induction s generalizing n with
  | nil =>
    rw [readDigits, Option.some.injEq]
    constructor
    · rintro rfl
      exact ⟨[], .nil, rfl, hn⟩
    · rintro ⟨ds, hds, hvalue, -⟩
      cases hds
      exact hvalue
  | cons c s ih =>
    rw [readDigits]
    cases hc : digitValue? 16 c with
    | none =>
      refine iff_of_false (fun h => by cases h) ?_
      rintro ⟨ds, hds, -⟩
      obtain ⟨d, ds, hdigit, -, rfl⟩ := List.forall₂_cons_left_iff.mp hds
      rw [digitValue?_eq_some_iff.mpr hdigit] at hc
      cases hc
    | some d =>
      dsimp only
      by_cases hle : 16 * n + d ≤ limit
      · rw [if_pos hle, ih hle]
        constructor
        · rintro ⟨ds, hds, hvalue⟩
          exact ⟨d :: ds, .cons (digitValue?_eq_some_iff.mp hc) hds, hvalue⟩
        · rintro ⟨ds, hds, hvalue⟩
          obtain ⟨d', ds', hdigit, hrest, rfl⟩ := List.forall₂_cons_left_iff.mp hds
          obtain rfl := Option.some.inj (hc.symm.trans (digitValue?_eq_some_iff.mpr hdigit))
          exact ⟨ds', hrest, hvalue⟩
      · rw [if_neg hle]
        refine iff_of_false (fun h => by cases h) ?_
        rintro ⟨ds, hds, hvalue, hlimit⟩
        obtain ⟨d', ds, hdigit, -, rfl⟩ := List.forall₂_cons_left_iff.mp hds
        obtain rfl := Option.some.inj (hc.symm.trans (digitValue?_eq_some_iff.mpr hdigit))
        -- more digits do not make a number smaller
        have hgrows := Numeral.foldl_digits_le 16 (by decide) ds (16 * n + d)
        exact hle (hgrows.trans (hvalue.trans_le hlimit))

theorem exists_dropPlus (s : List Char) :
    ∃ sign, (sign = [] ∨ sign = ['+']) ∧ s = sign ++ dropPlus s := by
  unfold dropPlus
  split
  · exact ⟨['+'], .inr rfl, rfl⟩
  · exact ⟨[], .inl rfl, rfl⟩

theorem ofDigits_reverse (ds : List Nat) :
    Nat.ofDigits 16 ds.reverse = ds.foldl (fun n d => 16 * n + d) 0 := by
  rw [Nat.ofDigits_eq_foldr, List.foldr_reverse]
  simp only [Nat.cast_id, Nat.add_comm]

/-- The text of a hexadecimal number: an optional plus sign and digits. -/
def IsNumber (s : List Char) (n : Nat) : Prop :=
  ∃ sign digits ds, s = sign ++ digits ∧ (sign = [] ∨ sign = ['+']) ∧ ds ≠ [] ∧
    List.Forall₂ HexDigit digits ds ∧ Nat.ofDigits 16 ds.reverse = n

theorem forall_mem_digits {digits : List Char} (h : List.Forall₂ HexDigit digits ds) :
    ∀ c ∈ digits, isBlank c = false ∧ c ≠ ':' ∧ c ≠ '+' := by
  have hboth := h.imp fun _ _ hdigit => And.intro hdigit.is_digit hdigit
  exact ((List.forall₂_and_left ..).mp hboth).1

/-- Neither blanks nor colons are part of a number. -/
theorem IsNumber.forall_mem (h : IsNumber s n) : ∀ c ∈ s, isBlank c = false ∧ c ≠ ':' := by
  obtain ⟨sign, digits, ds, rfl, hsign, -, hds, -⟩ := h
  -- a character is the sign or one of the digits
  intro c hc
  rcases List.mem_append.mp hc with hc | hc
  · rcases hsign with rfl | rfl
    · cases hc
    · rw [List.mem_singleton.mp hc]
      decide
  · obtain ⟨hblank, hcolon, -⟩ := forall_mem_digits hds c hc
    exact ⟨hblank, hcolon⟩

theorem IsNumber.ne_nil (h : IsNumber s n) : s ≠ [] := by
  obtain ⟨sign, digits, ds, rfl, -, hne, hds, -⟩ := h
  intro hnil
  rw [(List.append_eq_nil_iff.mp hnil).2] at hds
  exact hne (List.forall₂_nil_left_iff.mp hds)

theorem read?_eq_readDigits (hne : dropPlus s ≠ []) :
    read? 16 limit s = readDigits 16 limit 0 (dropPlus s) := by
  unfold read?
  split
  · exact absurd ‹dropPlus s = []› hne
  · rfl

theorem dropPlus_digits {sign digits : List Char} (hsign : sign = [] ∨ sign = ['+'])
    (hdigits : List.Forall₂ HexDigit digits ds) : dropPlus (sign ++ digits) = digits := by
  rcases hsign with rfl | rfl
  · cases hdigits with
    | nil => rfl
    | cons hdigit _ =>
      rw [List.nil_append, dropPlus]
      -- without a sign the first digit could only be dropped if it were a plus
      rintro rest heq
      exact absurd (List.cons.inj heq).1 hdigit.is_digit.2.2
  · rfl

theorem read?_eq_some_iff : read? 16 limit s = some n ↔ IsNumber s n ∧ n ≤ limit := by
  constructor
  · intro h
    have hne : dropPlus s ≠ [] := by
      intro hnil
      rw [read?, hnil] at h
      cases h
    rw [read?_eq_readDigits hne, readDigits_eq_some_iff (Nat.zero_le limit)] at h
    obtain ⟨ds, hds, hvalue, hle⟩ := h
    obtain ⟨sign, hsign, hs⟩ := exists_dropPlus s
    have hdigits : ds ≠ [] := by
      rintro rfl
      exact hne (List.forall₂_nil_right_iff.mp hds)
    exact ⟨⟨sign, dropPlus s, ds, hs, hsign, hdigits, hds, (ofDigits_reverse ds).trans hvalue⟩, hle⟩
  · rintro ⟨⟨sign, digits, ds, rfl, hsign, hne, hds, hvalue⟩, hle⟩
    have hdrop := dropPlus_digits hsign hds
    have hdigits : digits ≠ [] := by
      rintro rfl
      exact hne (List.forall₂_nil_left_iff.mp hds)
    rw [read?_eq_readDigits (hdrop.symm ▸ hdigits), hdrop,
      readDigits_eq_some_iff (Nat.zero_le limit)]
    exact ⟨ds, hds, (ofDigits_reverse ds).symm.trans hvalue, hle⟩

/-- What is written in hexadecimal is the text of a number. -/
theorem isNumber_padded (upper : Bool) (width n : Nat) :
    IsNumber (Hex.padded upper width n).toList n := by
  have hread : readDigits 16 n 0 (Hex.padded upper width n).toList = some n :=
    Hex.readDigits_padded (Nat.le_refl n)
  obtain ⟨ds, hds, hvalue, -⟩ := (readDigits_eq_some_iff (Nat.zero_le n)).mp hread
  refine ⟨[], (Hex.padded upper width n).toList, ds, (List.nil_append _).symm, .inl rfl, ?_, hds,
    (ofDigits_reverse ds).trans hvalue⟩
  rintro rfl
  -- even zero is written with a digit
  have hnil := List.forall₂_nil_right_iff.mp hds
  rw [Hex.toList_padded, List.map_eq_nil_iff, Hex.paddedDigits, List.append_eq_nil_iff] at hnil
  have hpos := Numeral.length_digits_pos 16 n
  rw [hnil.2] at hpos
  cases hpos

end Bench65.Number
