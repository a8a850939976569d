import Bench65.ArgumentBlock
import Bench65.Proofs.Memory
import Mathlib.Algebra.GroupWithZero.Nat
import Mathlib.Data.List.TakeWhile

/-!
# The bytes of an argument block

A block is one run of bytes below its top. `length_bytes` says that it has the size announced, and
the lemmas after it take the run apart: the count, the table of pointers (`readWord_slot`), its null
pointer, and behind it the texts (`holds_text`), each where its pointer leads.

Addresses are computed in sixteen bits. As long as the block ends below `$10000` no such computation
wraps: `toNat_tableAddress`, `toNat_slot` and `toNat_pointer` give the addresses as sums of natural
numbers. `InMemory.readBack_eq` concludes that the arguments are found wherever the bytes hold.
-/

namespace Bench65.ArgumentBlock

open Memory

/-! ### Sizes and offsets -/

/-- The bytes that the texts of some arguments take, each with its zero. -/
def textSize (args : List (List UInt8)) : Nat :=
  (args.map (·.length + 1)).sum

/-- Where the text of an argument begins in a block that starts at an address, as a number. -/
def textStart (start : UInt16) (args : List (List UInt8)) (i : Nat) : Nat :=
  start.toNat + headerSize args + textSize (args.take i)

@[simp]
theorem textSize_nil : textSize [] = 0 := rfl

@[simp]
theorem textSize_cons (arg : List UInt8) (args : List (List UInt8)) :
    textSize (arg :: args) = arg.length + 1 + textSize args := by
  simp [textSize]

theorem size_eq (args : List (List UInt8)) : size args = headerSize args + textSize args := rfl

theorem textSize_take_add_le (args : List (List UInt8)) {i : Nat} (hi : i < args.length) :
    textSize (args.take i) + (args[i].length + 1) ≤ textSize args := by
  induction args generalizing i with
  | nil => exact absurd hi (Nat.not_lt_zero i)
  | cons arg args ih =>
    cases i with
    | zero => simp
    | succ i =>
      have := ih (Nat.lt_of_succ_lt_succ hi)
      rw [List.take_succ_cons, textSize_cons, textSize_cons, List.getElem_cons_succ]
      omega

theorem length_textAddresses (a : UInt16) (args : List (List UInt8)) :
    (textAddresses a args).length = args.length := by
  induction args generalizing a with
  | nil => rfl
  | cons arg args ih => rw [textAddresses, List.length_cons, ih, List.length_cons]

theorem getElem_textAddresses (a : UInt16) (args : List (List UInt8)) {i : Nat}
    (hi : i < (textAddresses a args).length) :
    (textAddresses a args)[i] = a + UInt16.ofNat (textSize (args.take i)) := by
  induction args generalizing a i with
  | nil => exact absurd hi (Nat.not_lt_zero i)
  | cons arg args ih =>
    cases i with
    | zero => simp [textAddresses]
    | succ i =>
      -- addresses are summed from the left, sizes from the right
      simp only [textAddresses, List.getElem_cons_succ, List.take_succ_cons, textSize_cons]
      rw [ih, UInt16.ofNat_add (arg.length + 1), UInt16.add_assoc]

theorem length_wordBytes (w : UInt16) : (wordBytes w).length = 2 := rfl

theorem length_flatMap_wordBytes (ws : List UInt16) :
    (ws.flatMap wordBytes).length = 2 * ws.length := by
  induction ws with
  | nil => rfl
  | cons w ws ih =>
    rw [List.flatMap_cons, List.length_append, ih, length_wordBytes, List.length_cons]
    omega

theorem length_texts (args : List (List UInt8)) :
    (args.flatMap (· ++ [0])).length = textSize args := by
  induction args with
  | nil => rfl
  | cons arg args ih =>
    rw [List.flatMap_cons, List.length_append, ih, textSize_cons, List.length_append]
    rfl

theorem length_bytes (start : UInt16) (args : List (List UInt8)) :
    (bytes start args).length = size args := by
  simp only [bytes, List.length_append, length_wordBytes, length_flatMap_wordBytes,
    length_textAddresses, length_texts, size_eq, headerSize]
  omega

/-! ### Taking the run apart -/

theorem readWord_of_holds_wordBytes {m : Memory} {a w : UInt16} {rest : List UInt8}
    (h : m.Holds a (wordBytes w ++ rest)) : m.readWord a = w := by
  have hw : m.readWord a = word (lowByte w) (highByte w) := Holds.readWord h
  rw [hw, word_lowByte_highByte]

/-- Words stored one behind the other are read two addresses apart. -/
theorem readWord_of_holds_flatMap {m : Memory} {a : UInt16} {ws : List UInt16} {rest : List UInt8}
    (h : m.Holds a (ws.flatMap wordBytes ++ rest)) {i : Nat} (hi : i < ws.length) :
    m.readWord (a + 2 * UInt16.ofNat i) = ws[i] := by
  -- by induction on the words, each of which moves the start by two bytes
  induction ws generalizing a i with
  | nil => exact absurd hi (Nat.not_lt_zero i)
  | cons w ws ih =>
    rw [List.flatMap_cons, List.append_assoc] at h
    cases i with
    | zero =>
      have ha : a + 2 * UInt16.ofNat 0 = a := by simp
      rw [ha]
      exact readWord_of_holds_wordBytes h
    | succ i =>
      have ha : a + 2 * UInt16.ofNat (i + 1) = a + UInt16.ofNat 2 + 2 * UInt16.ofNat i := by
        rw [Nat.add_comm i 1, UInt16.ofNat_add, UInt16.mul_add, ← UInt16.add_assoc]
        rfl
      rw [ha, List.getElem_cons_succ]
      exact ih (holds_append.mp h).2 (Nat.lt_of_succ_lt_succ hi)

/-- Texts stored one behind the other hold at their addresses. -/
theorem holds_text_of_holds_flatMap {m : Memory} {a : UInt16} {args : List (List UInt8)}
    (h : m.Holds a (args.flatMap (· ++ [0]))) {i : Nat} (hi : i < args.length) :
    m.Holds (a + UInt16.ofNat (textSize (args.take i))) (args[i] ++ [0]) := by
  induction args generalizing a i with
  | nil => exact absurd hi (Nat.not_lt_zero i)
  | cons arg args ih =>
    rw [List.flatMap_cons, holds_append] at h
    cases i with
    | zero => simpa using h.1
    | succ i =>
      have hlen : (arg ++ [(0 : UInt8)]).length = arg.length + 1 := by simp
      rw [hlen] at h
      have := ih h.2 (Nat.lt_of_succ_lt_succ hi)
      rw [List.take_succ_cons, textSize_cons, UInt16.ofNat_add, ← UInt16.add_assoc]
      exact this

/-! ### A block that holds -/

/-- The address of a pointer of the table. -/
def slot (b : ArgumentBlock) (i : Nat) : UInt16 :=
  b.tableAddress + 2 * UInt16.ofNat i

/-- The pointer to the text of an argument, as the block's writer computes it. -/
def pointer (b : ArgumentBlock) (args : List (List UInt8)) (i : Nat) : UInt16 :=
  b.start + UInt16.ofNat (headerSize args) + UInt16.ofNat (textSize (args.take i))

/-- A block of some arguments, in a memory that holds its bytes. The block ends where it says, and
its arguments are texts. -/
structure InMemory (b : ArgumentBlock) (m : Memory) (args : List (List UInt8)) : Prop where
  count_eq : b.count = UInt16.ofNat args.length
  start_add_size : b.start.toNat + size args = b.stop.toNat
  zero_not_mem : ∀ arg ∈ args, 0 ∉ arg
  holds : m.Holds b.start (bytes b.start args)

namespace InMemory

variable {b : ArgumentBlock} {m : Memory} {args : List (List UInt8)} (h : b.InMemory m args)
include h

/-! #### Addresses as numbers -/

theorem start_add_sizes :
    b.start.toNat + (2 + 2 * (args.length + 1)) + textSize args = b.stop.toNat := by
  have hs := h.start_add_size
  rw [size_eq, headerSize] at hs
  omega

theorem toNat_count : b.count.toNat = args.length := by
  have hs := h.start_add_sizes
  have ht := b.stop.toNat_lt
  rw [h.count_eq, UInt16.toNat_ofNat', Nat.mod_eq_of_lt (by omega)]

theorem toNat_tableAddress : b.tableAddress.toNat = b.start.toNat + 2 := by
  have hs := h.start_add_sizes
  have ht := b.stop.toNat_lt
  exact toNat_add_ofNat (n := 2) (by omega)

theorem toNat_slot {i : Nat} (hi : i ≤ args.length) :
    (b.slot i).toNat = b.start.toNat + 2 + 2 * i := by
  have hs := h.start_add_sizes
  have ht := b.stop.toNat_lt
  have hslot : b.slot i = b.tableAddress + UInt16.ofNat (2 * i) := by
    rw [slot, UInt16.ofNat_mul]
    rfl
  rw [hslot, toNat_add_ofNat (by rw [h.toNat_tableAddress]; omega), h.toNat_tableAddress]

theorem toNat_pointer {i : Nat} (hi : i < args.length) :
    (b.pointer args i).toNat = textStart b.start args i := by
  have hs := h.start_add_sizes
  have ht := b.stop.toNat_lt
  have htext := textSize_take_add_le args hi
  have hbase : (b.start + UInt16.ofNat (headerSize args)).toNat =
      b.start.toNat + headerSize args := toNat_add_ofNat (by rw [headerSize]; omega)
  rw [pointer, toNat_add_ofNat (by rw [hbase, headerSize]; omega), hbase, textStart]

/-- The text of an argument and its zero end inside the block. -/
theorem textStart_add_le {i : Nat} (hi : i < args.length) :
    textStart b.start args i + (args[i].length + 1) ≤ b.stop.toNat := by
  have hs := h.start_add_sizes
  have htext := textSize_take_add_le args hi
  rw [textStart, headerSize]
  omega

/-! #### Contents -/

theorem readWord_countAddress : m.readWord b.countAddress = b.count := by
  have hb := h.holds
  rw [bytes, List.append_assoc, List.append_assoc] at hb
  rw [countAddress, readWord_of_holds_wordBytes hb, h.count_eq]

/-- Behind the count stand the pointers, the null pointer and the texts. -/
theorem holds_table :
    m.Holds b.tableAddress
      ((textAddresses (b.start + UInt16.ofNat (headerSize args)) args).flatMap wordBytes ++
        (wordBytes 0 ++ args.flatMap (· ++ [0]))) := by
  have hb := h.holds
  rw [bytes, List.append_assoc, List.append_assoc, holds_append] at hb
  exact hb.2

theorem readWord_slot {i : Nat} (hi : i < args.length) :
    m.readWord (b.slot i) = b.pointer args i := by
  have hlen := length_textAddresses (b.start + UInt16.ofNat (headerSize args)) args
  rw [slot, readWord_of_holds_flatMap h.holds_table (by rw [hlen]; exact hi),
    getElem_textAddresses, pointer]

/-- Behind the pointers stand the null pointer and the texts. -/
theorem holds_null :
    m.Holds (b.slot args.length) (wordBytes 0 ++ args.flatMap (· ++ [0])) := by
  have hb := (holds_append.mp h.holds_table).2
  rw [length_flatMap_wordBytes, length_textAddresses, UInt16.ofNat_mul] at hb
  exact hb

theorem readWord_null : m.readWord (b.slot args.length) = 0 :=
  readWord_of_holds_wordBytes h.holds_null

theorem holds_text {i : Nat} (hi : i < args.length) :
    m.Holds (b.pointer args i) (args[i] ++ [0]) := by
  have hb := (holds_append.mp h.holds_null).2
  -- behind the null pointer is where the first text goes
  have hbase : b.slot args.length + UInt16.ofNat (wordBytes 0).length =
      b.start + UInt16.ofNat (headerSize args) := by
    apply UInt16.toNat_inj.mp
    have hs := h.start_add_sizes
    have ht := b.stop.toNat_lt
    have hslot := h.toNat_slot (Nat.le_refl _)
    rw [length_wordBytes, toNat_add_ofNat (by omega), toNat_add_ofNat (by rw [headerSize]; omega),
      hslot, headerSize]
    omega
  rw [hbase] at hb
  exact holds_text_of_holds_flatMap hb hi

/-- The block stays in a memory that agrees on it. -/
theorem congr {n : Memory}
    (heq : ∀ c : UInt16, b.start.toNat ≤ c.toNat → c.toNat < b.stop.toNat → n.read c = m.read c) :
    b.InMemory n args where
  count_eq := h.count_eq
  start_add_size := h.start_add_size
  zero_not_mem := h.zero_not_mem
  holds := by
    have hs := h.start_add_size
    have ht := b.stop.toNat_lt
    -- the block ends below the end of the address space, so what is close behind its start is in it
    refine h.holds.congr (fun c hc => ?_) (by rw [length_bytes]; omega)
    rw [length_bytes] at hc
    have hle : b.start.toNat ≤ c.toNat := by
      by_contra hlt
      rw [toNat_sub_of_lt (by omega)] at hc
      omega
    rw [toNat_sub_of_le hle] at hc
    exact heq c hle (by omega)

/-! #### Reading back -/

theorem pointer_ne_zero {i : Nat} (hi : i < args.length) : b.pointer args i ≠ 0 := by
  intro h0
  have hp := h.toNat_pointer hi
  rw [h0, textStart, headerSize] at hp
  exact absurd hp (by rw [UInt16.toNat_zero]; omega)

theorem textAt_pointer {i : Nat} (hi : i < args.length) :
    b.textAt m (b.pointer args i) = args[i] := by
  have hend := h.textStart_add_le hi
  rw [← h.toNat_pointer hi] at hend
  have hlimit : args[i].length < (b.stop - b.pointer args i).toNat := by
    rw [toNat_sub_of_le (by omega)]
    omega
  rw [textAt, (h.holds_text hi).text? (h.zero_not_mem _ (List.getElem_mem hi)) hlimit,
    Option.getD_some]

/-- The arguments are read back from every memory that holds their block. -/
theorem readBack_eq : b.readBack m = args := by
  have hpointers : ((List.range b.count.toNat).map fun i => m.readWord (b.slot i)) =
      (List.range args.length).map (b.pointer args) := by
    rw [h.toNat_count]
    exact List.map_congr_left fun i hi => h.readWord_slot (List.mem_range.mp hi)
  -- no pointer is null, so the table is read to its end
  have hnonzero : ∀ p ∈ (List.range args.length).map (b.pointer args), decide (p ≠ 0) = true := by
    intro p hp
    obtain ⟨i, hi, rfl⟩ := List.mem_map.mp hp
    exact decide_eq_true (h.pointer_ne_zero (List.mem_range.mp hi))
  have htexts : ((List.range args.length).map (b.pointer args)).map (b.textAt m) = args := by
    apply List.ext_getElem
    · simp
    · intro i _ hi
      simp only [List.getElem_map, List.getElem_range]
      exact h.textAt_pointer hi
  rw [readBack, h.readWord_countAddress]
  show (List.takeWhile _ ((List.range b.count.toNat).map fun i => m.readWord (b.slot i))).map _ = _
  rw [hpointers, List.takeWhile_eq_self_iff.mpr hnonzero, htexts]

end InMemory

/-! ### Writing a block -/

/-- The first argument with a zero byte. -/
def FirstWithZero (args : List (List UInt8)) (i : Nat) : Prop :=
  ∃ h : i < args.length, 0 ∈ args[i] ∧ ∀ j (hj : j < i), 0 ∉ args[j]

theorem findIdx?_eq_some_iff (args : List (List UInt8)) (i : Nat) :
    args.findIdx? (·.contains 0) = some i ↔ FirstWithZero args i := by
  rw [List.findIdx?_eq_some_iff_getElem, FirstWithZero]
  simp

theorem findIdx?_eq_none_iff (args : List (List UInt8)) :
    args.findIdx? (·.contains 0) = none ↔ ∀ arg ∈ args, 0 ∉ arg := by
  simp [List.findIdx?_eq_none_iff]

/-- Why the arguments are refused: a zero byte comes first, then a lack of room. -/
def Refusal (args : List (List UInt8)) (top : UInt16) (floor : Nat) (e : LoadError) : Prop :=
  (∃ i, FirstWithZero args i ∧ e = .interiorNul i) ∨
    (∀ arg ∈ args, 0 ∉ arg) ∧ top.toNat - floor < size args ∧
      e = .argumentsTooLarge (size args) (top.toNat - floor) top

/-- Where a block goes that ends at `top`. -/
def place (args : List (List UInt8)) (top : UInt16) : ArgumentBlock where
  count := UInt16.ofNat args.length
  start := top - UInt16.ofNat (size args)
  stop := top

/-- A refusal comes before anything is stored. -/
theorem run_serialize_eq_error_iff (m left : Memory) (args : List (List UInt8)) (top : UInt16)
    (floor : Nat) (e : LoadError) :
    (serialize args top floor).run m = .error e left ↔ Refusal args top floor e ∧ left = m := by
  constructor
  · intro h
    -- the checks in the order in which they are made: zero bytes, then room
    cases hf : args.findIdx? (·.contains 0) with
    | some i =>
      rw [serialize, hf] at h
      cases h
      exact ⟨Or.inl ⟨i, (findIdx?_eq_some_iff args i).mp hf, rfl⟩, rfl⟩
    | none =>
      have hzero := (findIdx?_eq_none_iff args).mp hf
      rw [serialize, hf] at h
      by_cases hroom : top.toNat - floor < size args
      · rw [if_pos hroom] at h
        cases h
        exact ⟨Or.inr ⟨hzero, hroom, rfl⟩, rfl⟩
      · rw [if_neg hroom] at h
        cases h
  · rintro ⟨⟨i, hi, rfl⟩ | ⟨hzero, hroom, rfl⟩, rfl⟩
    · rw [serialize, (findIdx?_eq_some_iff args i).mpr hi]
      rfl
    · rw [serialize, (findIdx?_eq_none_iff args).mpr hzero, if_pos hroom]
      rfl

theorem run_serialize_eq_ok_iff (m : Memory) (args : List (List UInt8)) (top : UInt16) (floor : Nat)
    (b : ArgumentBlock) (written : Memory) :
    (serialize args top floor).run m = .ok b written ↔
      (∀ arg ∈ args, 0 ∉ arg) ∧ size args ≤ top.toNat - floor ∧ b = place args top ∧
        written = m.writeBytes (place args top).start (bytes (place args top).start args) := by
  constructor
  · intro h
    cases hf : args.findIdx? (·.contains 0) with
    | some i =>
      rw [serialize, hf] at h
      cases h
    | none =>
      rw [serialize, hf] at h
      by_cases hroom : top.toNat - floor < size args
      · rw [if_pos hroom] at h
        cases h
      · rw [if_neg hroom] at h
        cases h
        exact ⟨(findIdx?_eq_none_iff args).mp hf, Nat.le_of_not_lt hroom, rfl, rfl⟩
  · rintro ⟨hzero, hroom, rfl, rfl⟩
    rw [serialize, (findIdx?_eq_none_iff args).mpr hzero, if_neg (Nat.not_lt.mpr hroom)]
    rfl

section Place

variable {args : List (List UInt8)} {top : UInt16} {floor : Nat}

theorem toNat_start_place (h : size args ≤ top.toNat) :
    (place args top).start.toNat + size args = top.toNat := by
  have ht := top.toNat_lt
  have hn : (UInt16.ofNat (size args)).toNat = size args := by
    rw [UInt16.toNat_ofNat', Nat.mod_eq_of_lt (by omega)]
  show (top - UInt16.ofNat (size args)).toNat + size args = top.toNat
  rw [toNat_sub_of_le (by omega), hn]
  omega

/-- The memory after a serialization holds the block. -/
theorem inMemory_place (m : Memory) (hzero : ∀ arg ∈ args, 0 ∉ arg)
    (hroom : size args ≤ top.toNat) :
    (place args top).InMemory
      (m.writeBytes (place args top).start (bytes (place args top).start args)) args where
  count_eq := rfl
  start_add_size := toNat_start_place hroom
  zero_not_mem := hzero
  holds := holds_writeBytes m _ (by
    have ht := top.toNat_lt
    rw [length_bytes]
    omega)

/-- A serialization changes nothing outside the block. -/
theorem read_of_not_mem_place (m : Memory) (hroom : size args ≤ top.toNat) {a : UInt16}
    (ha : a.toNat < (place args top).start.toNat ∨ top.toNat ≤ a.toNat) :
    (m.writeBytes (place args top).start (bytes (place args top).start args)).read a =
      m.read a := by
  apply read_writeBytes_of_le
  have hs := toNat_start_place hroom
  have ht := top.toNat_lt
  rw [length_bytes]
  rcases ha with ha | ha
  · rw [toNat_sub_of_lt ha]
    omega
  · rw [toNat_sub_of_le (by omega)]
    omega

/-- A successful serialization leaves its block in memory, at or above the floor. -/
theorem inMemory_serialize {m written : Memory} {b : ArgumentBlock}
    (h : (serialize args top floor).run m = .ok b written) :
    b.InMemory written args ∧ floor ≤ b.start.toNat := by
  obtain ⟨hzero, hroom, rfl, rfl⟩ := (run_serialize_eq_ok_iff m args top floor b written).mp h
  have hle : size args ≤ top.toNat := by omega
  have hs := toNat_start_place hle
  refine ⟨inMemory_place m hzero hle, ?_⟩
  have hpos : 0 < size args := by
    rw [size_eq, headerSize]
    omega
  omega

end Place

end Bench65.ArgumentBlock
