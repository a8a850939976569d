import Bench65.Text.Blank
import Mathlib.Tactic.ByContra

/-!
# The fields of a line

A line is blanks, a field, blanks, a field and so on, and `fields` yields the fields:
`fields_append` says what a line in pieces has for fields, `exists_of_fields_eq_cons` takes a line
with a first field to pieces.
-/

namespace Bench65

/-- Nothing but blanks. -/
def Blanks (s : List Char) : Prop :=
  ∀ c ∈ s, isBlank c = true

instance (s : List Char) : Decidable (Blanks s) :=
  decidable_of_iff (s.all isBlank = true) List.all_eq_true

/-- Characters that are not blank, at least one. -/
structure IsField (s : List Char) : Prop where
  ne_nil : s ≠ []
  isBlank_eq_false : ∀ c ∈ s, isBlank c = false

instance (s : List Char) : Decidable (IsField s) :=
  decidable_of_iff (s ≠ [] ∧ s.all (!isBlank ·) = true)
    ⟨fun h => ⟨h.1, by simpa using h.2⟩, fun h => ⟨h.ne_nil, by simpa using h.isBlank_eq_false⟩⟩

variable {c : Char} {s line indent field rest : List Char} {others : List (List Char)}

theorem Blanks.tail (h : Blanks (c :: s)) : isBlank c = true ∧ Blanks s :=
  List.forall_mem_cons.mp h

theorem blanks_nil : Blanks [] :=
  fun _ hc => nomatch hc

theorem fields_append_of_blanks (h : Blanks indent) (rest : List Char) :
    fields (indent ++ rest) = fields rest := by
  induction indent with
  | nil => rfl
  | cons c s ih =>
    obtain ⟨hc, hs⟩ := h.tail
    rw [List.cons_append, fields, if_pos hc, ih hs]

theorem fields_of_blanks (h : Blanks s) : fields s = [] := by
  simpa [fields] using fields_append_of_blanks h []

theorem exists_fields_cons (hc : isBlank c = false) (s : List Char) :
    ∃ field others, fields (c :: s) = (c :: field) :: others := by
  rw [fields, if_neg (Bool.eq_false_iff.mp hc)]
  split
  · split
    · exact ⟨_, _, rfl⟩
    · exact ⟨_, _, rfl⟩
  · exact ⟨_, _, rfl⟩

theorem fields_eq_nil_iff : fields s = [] ↔ Blanks s := by
  refine ⟨fun h => ?_, fields_of_blanks⟩
  induction s with
  | nil => exact blanks_nil
  | cons c s ih =>
    cases hc : isBlank c with
    | false =>
      obtain ⟨field, others, hfields⟩ := exists_fields_cons hc s
      rw [h] at hfields
      cases hfields
    | true =>
      rw [fields, if_pos hc] at h
      exact List.forall_mem_cons.mpr ⟨hc, ih h⟩

theorem startsField_append_of_blanks (h : Blanks indent) (hne : indent ≠ []) (rest : List Char) :
    startsField (indent ++ rest) = false := by
  cases indent with
  | nil => exact absurd rfl hne
  | cons c s => simp [startsField, h.tail.1]

/-- A field ends before a blank and at the end of the line. -/
theorem fields_append (h : IsField field) (hrest : startsField rest = false) :
    fields (field ++ rest) = field :: fields rest := by
  obtain ⟨hne, hfield⟩ := h
  induction field with
  | nil => exact absurd rfl hne
  | cons c s ih =>
    obtain ⟨hc, hs⟩ := List.forall_mem_cons.mp hfield
    rw [List.cons_append, fields, if_neg (Bool.eq_false_iff.mp hc)]
    cases s with
    | nil => rw [List.nil_append, if_neg (Bool.eq_false_iff.mp hrest)]
    | cons d s =>
      have hstart : startsField (d :: s ++ rest) = true := by
        simp [startsField, hs]
      rw [if_pos hstart, ih (List.cons_ne_nil d s) hs]

/-- What a line with a first field is made of. -/
theorem exists_of_fields_eq_cons (h : fields line = field :: others) :
    ∃ indent rest, line = indent ++ (field ++ rest) ∧ Blanks indent ∧ IsField field ∧
      startsField rest = false ∧ fields rest = others := by
  induction line generalizing field others with
  | nil => cases h
  | cons c s ih =>
    rw [fields] at h
    cases hc : isBlank c with
    | true =>
      rw [if_pos hc] at h
      obtain ⟨indent, rest, rfl, hindent, hrest⟩ := ih h
      exact ⟨c :: indent, rest, rfl, List.forall_mem_cons.mpr ⟨hc, hindent⟩, hrest⟩
    | false =>
      rw [if_neg (Bool.eq_false_iff.mp hc)] at h
      cases hstart : startsField s with
      | false =>
        rw [hstart, if_neg Bool.false_ne_true] at h
        obtain ⟨rfl, rfl⟩ := List.cons.inj h
        exact ⟨[], s, rfl, blanks_nil, ⟨List.cons_ne_nil c [], by simpa using hc⟩, hstart, rfl⟩
      | true =>
        rw [if_pos hstart] at h
        -- the rest of the field is the first field of the rest of the line, with nothing before it
        cases hs : fields s with
        | nil =>
          rw [fields_eq_nil_iff] at hs
          cases s with
          | nil => cases hstart
          | cons d s => simp [startsField, hs.tail.1] at hstart
        | cons field' others' =>
          rw [hs] at h
          obtain ⟨rfl, rfl⟩ := List.cons.inj h
          obtain ⟨indent, rest, rfl, hindent, hfield, hrest⟩ := ih hs
          have hnil : indent = [] := by
            by_contra hne
            rw [startsField_append_of_blanks hindent hne] at hstart
            cases hstart
          subst hnil
          exact ⟨[], rest, rfl, blanks_nil, ⟨List.cons_ne_nil c _,
            List.forall_mem_cons.mpr ⟨hc, hfield.isBlank_eq_false⟩⟩, hrest⟩

end Bench65
