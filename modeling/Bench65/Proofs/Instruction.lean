import Bench65.Instruction.Table
import Mathlib.Data.List.Nodup

/-!
# What an opcode stands for

`decode_eq_some_iff`: an opcode is decoded to the listed instruction that has it. This rests on the
opcodes being distinct (`nodup_opcodes`), so that no entry of the table overwrites another; what is
listed of an instruction can then be checked on the list.

The 65C02 decodes every opcode of the 6502 to the same instruction (`decode_cmos_of_nmos`), which
takes another cycle if it jumps through a pointer.
-/

namespace Bench65.Instruction

variable {variant : Variant} {opcode : UInt8} {i : Instruction}

/-! ### Instructions of the 6502 on the 65C02 -/

@[simp]
theorem opcode_onCmos (i : Instruction) : i.onCmos.opcode = i.opcode := by
  unfold onCmos
  split <;> rfl

@[simp]
theorem mnemonic_onCmos (i : Instruction) : i.onCmos.mnemonic = i.mnemonic := by
  unfold onCmos
  split <;> rfl

@[simp]
theorem mode_onCmos (i : Instruction) : i.onCmos.mode = i.mode := by
  unfold onCmos
  split <;> rfl

@[simp]
theorem length_onCmos (i : Instruction) : i.onCmos.length = i.length := by
  simp [length]

theorem cycles_onCmos (i : Instruction) :
    i.onCmos.cycles = i.cycles + if i.mode = .indirect then 1 else 0 := by
  unfold onCmos
  split <;> rfl

/-! ### Decoding -/

/-- Whether numbers are distinct and none of them is a bit of `seen`. -/
def distinct : (seen : Nat) → List Nat → Bool
  | _, [] => true
  | seen, k :: ks => !seen.testBit k && distinct (seen ||| 1 <<< k) ks

theorem nodup_of_distinct {seen : Nat} {ks : List Nat} (h : distinct seen ks = true) :
    ks.Nodup ∧ ∀ k ∈ ks, seen.testBit k = false := by
  -- the bits of `seen` are the keys passed so far
  induction ks generalizing seen with
  | nil => exact ⟨List.nodup_nil, fun _ hk => nomatch hk⟩
  | cons k ks ih =>
    rw [distinct, Bool.and_eq_true, Bool.not_eq_true'] at h
    obtain ⟨hnodup, hrest⟩ := ih h.2
    have hother : ∀ j ∈ ks, k ≠ j ∧ seen.testBit j = false := by
      intro j hj
      have hbits := hrest j hj
      rw [Nat.testBit_or, Bool.or_eq_false_iff, Nat.shiftLeft_eq, Nat.one_mul,
        Nat.testBit_two_pow] at hbits
      exact ⟨of_decide_eq_false hbits.2, hbits.1⟩
    have hk : k ∉ ks := fun hk => (hother k hk).1 rfl
    exact ⟨List.nodup_cons.mpr ⟨hk, hnodup⟩,
      List.forall_mem_cons.mpr ⟨h.1, fun j hj => (hother j hj).2⟩⟩

/-- What is distinct over the list of all instructions, and the same for an instruction on both
variants, is distinct over the instructions of each. -/
theorem nodup_map_all {f : Instruction → Nat} (hsame : ∀ i, f i.onCmos = f i)
    (h : distinct 0 ((nmosInstructions ++ cmosAdditions).map f) = true) (variant : Variant) :
    ((all variant).map f).Nodup := by
  have hnodup := (nodup_of_distinct h).1
  rw [List.map_append] at hnodup
  -- the two tables differ in cycles, which the key does not see
  cases variant with
  | nmos => exact hnodup.of_append_left
  | cmos =>
    have hmap : (nmosInstructions.map onCmos).map f = nmosInstructions.map f := by
      rw [List.map_map]
      exact List.map_congr_left fun i _ => hsame i
    rw [all, List.map_append, hmap]
    exact hnodup

theorem distinct_opcodes :
    distinct 0 ((nmosInstructions ++ cmosAdditions).map (·.opcode.toNat)) = true := by
  decide +kernel

/-- No two instructions of a variant have the same opcode. -/
theorem nodup_opcodes (variant : Variant) : ((all variant).map (·.opcode.toNat)).Nodup :=
  nodup_map_all (fun i => congrArg UInt8.toNat (opcode_onCmos i)) distinct_opcodes variant

/-- The entry of a table for an opcode. -/
def entry (table : Vector (Option Instruction) 256) (opcode : UInt8) : Option Instruction :=
  have : opcode.toNat < 256 := opcode.toNat_lt
  table[opcode.toNat]

theorem toNat_opcode_lt (i : Instruction) : i.opcode.toNat < 256 :=
  i.opcode.toNat_lt

/-- The table with some more instructions written into it. -/
def addAll (table : Vector (Option Instruction) 256) (instructions : List Instruction) :
    Vector (Option Instruction) 256 :=
  instructions.foldl (fun table i => table.set i.opcode.toNat (some i) i.toNat_opcode_lt) table

theorem entry_addAll_of_not_mem {table : Vector (Option Instruction) 256}
    {instructions : List Instruction} (h : ∀ j ∈ instructions, j.opcode.toNat ≠ opcode.toNat) :
    entry (addAll table instructions) opcode = entry table opcode := by
  induction instructions generalizing table with
  | nil => rfl
  | cons j rest ih =>
    have hj := h j (List.mem_cons_self ..)
    have hrest : ∀ k ∈ rest, k.opcode.toNat ≠ opcode.toNat :=
      fun k hk => h k (List.mem_cons_of_mem _ hk)
    unfold addAll at ih ⊢
    rw [List.foldl_cons, ih hrest]
    exact Vector.getElem_set_ne _ _ hj

theorem entry_addAll_of_mem {table : Vector (Option Instruction) 256}
    {instructions : List Instruction} (hnodup : (instructions.map (·.opcode.toNat)).Nodup)
    (hi : i ∈ instructions) : entry (addAll table instructions) i.opcode = some i := by
  induction instructions generalizing table with
  | nil => cases hi
  | cons j rest ih =>
    rw [List.map_cons, List.nodup_cons] at hnodup
    obtain ⟨hj, hrest⟩ := hnodup
    rcases List.mem_cons.mp hi with rfl | hi
    · -- what is written later goes elsewhere
      have hother : ∀ k ∈ rest, k.opcode.toNat ≠ i.opcode.toNat := by
        intro k hk heq
        exact hj (heq ▸ List.mem_map_of_mem hk)
      show entry (addAll (table.set i.opcode.toNat (some i) i.toNat_opcode_lt) rest) _ = _
      rw [entry_addAll_of_not_mem hother]
      exact Vector.getElem_set_self _
    · exact ih hrest hi

theorem decode_eq_entry (variant : Variant) (opcode : UInt8) :
    decode variant opcode = entry (addAll (Vector.replicate 256 none) (all variant)) opcode := by
  cases variant with
  | nmos => rfl
  | cmos => rfl

/-- An opcode is decoded to the listed instruction that has it, if there is one. -/
theorem decode_eq_some_iff :
    decode variant opcode = some i ↔ i ∈ all variant ∧ i.opcode = opcode := by
  constructor
  · intro h
    -- what is in the table was written there, as it starts out empty
    by_cases hlisted : ∃ j ∈ all variant, j.opcode.toNat = opcode.toNat
    · obtain ⟨j, hj, hopcode⟩ := hlisted
      obtain rfl := UInt8.toNat_inj.mp hopcode
      rw [decode_eq_entry, entry_addAll_of_mem (nodup_opcodes variant) hj] at h
      obtain rfl := Option.some.inj h
      exact ⟨hj, rfl⟩
    · have hnone : ∀ j ∈ all variant, j.opcode.toNat ≠ opcode.toNat :=
        fun j hj heq => hlisted ⟨j, hj, heq⟩
      rw [decode_eq_entry, entry_addAll_of_not_mem hnone, entry, Vector.getElem_replicate] at h
      cases h
  · rintro ⟨hi, rfl⟩
    rw [decode_eq_entry, entry_addAll_of_mem (nodup_opcodes variant) hi]

/-- The 65C02 has the instructions of the 6502 under the same opcodes. -/
theorem decode_cmos_of_nmos (h : decode .nmos opcode = some i) :
    decode .cmos opcode = some i.onCmos := by
  obtain ⟨hi, hopcode⟩ := decode_eq_some_iff.mp h
  have hmem : i.onCmos ∈ all .cmos := List.mem_append_left _ (List.mem_map_of_mem hi)
  rw [decode_eq_some_iff, opcode_onCmos]
  exact ⟨hmem, hopcode⟩

end Bench65.Instruction
