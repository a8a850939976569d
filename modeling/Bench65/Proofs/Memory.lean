import Bench65.Memory

/-!
# What memory holds

`Memory.Holds m a bytes` says that the bytes stand in memory from address `a` on, around the end of
the address space if need be. A run of bytes holds where it was written (`holds_writeBytes`), a
write changes nothing outside its run (`read_writeBytes_of_le`), and what holds of a concatenation
holds of its parts, one behind the other (`holds_append`). Words and zero-terminated texts are read
off the bytes held (`Holds.readWord`, `Holds.text?`).

Distances are differences of addresses: `(c - a).toNat` is how far `c` lies behind `a` on the way
upwards, and a run of `n` bytes from `a` reaches exactly the addresses at distances below `n`.
-/

namespace Bench65

/-! ### Distances -/

theorem toNat_sub_add_one {a c : UInt16} (h : 1 ≤ (c - a).toNat) :
    (c - (a + 1)).toNat = (c - a).toNat - 1 := by
  have ha := a.toNat_lt
  have hc := c.toNat_lt
  simp only [UInt16.toNat_sub, UInt16.toNat_add, UInt16.reduceToNat] at h ⊢
  omega

theorem ne_of_one_le_toNat_sub {a c : UInt16} (h : 1 ≤ (c - a).toNat) : a ≠ c := by
  rintro rfl
  rw [UInt16.sub_self] at h
  exact absurd h (by decide)

/-- Every address is reached from every other one. -/
theorem add_ofNat_toNat_sub (a c : UInt16) : a + UInt16.ofNat (c - a).toNat = c := by
  rw [UInt16.ofNat_toNat, UInt16.add_comm, UInt16.sub_add_cancel]

theorem one_le_toNat_sub_of_ne {a c : UInt16} (h : a ≠ c) : 1 ≤ (c - a).toNat := by
  refine Nat.one_le_iff_ne_zero.mpr fun hzero => h ?_
  have hreach := add_ofNat_toNat_sub a c
  rw [hzero] at hreach
  exact (UInt16.add_zero a).symm.trans hreach

/-- Fewer steps than there are addresses do not lead around to the address before the first. -/
theorem le_toNat_sub_add_one (a : UInt16) {n : Nat} (h : n < 0x10000) :
    n ≤ (a - (a + 1)).toNat := by
  have ha := a.toNat_lt
  rw [UInt16.toNat_sub, UInt16.toNat_add, UInt16.toNat_one]
  omega

theorem add_ofNat_succ (a : UInt16) (n : Nat) :
    a + UInt16.ofNat (n + 1) = a + 1 + UInt16.ofNat n := by
  rw [Nat.add_comm n 1, UInt16.ofNat_add, ← UInt16.add_assoc]
  rfl

/-- Below the end of the address space addition does not wrap. -/
theorem toNat_add_ofNat {a : UInt16} {n : Nat} (h : a.toNat + n < 0x10000) :
    (a + UInt16.ofNat n).toNat = a.toNat + n := by
  rw [UInt16.toNat_add, UInt16.toNat_ofNat']
  omega

/-- The distance between ordered addresses is the difference of their numbers. -/
theorem toNat_sub_of_le {a c : UInt16} (h : a.toNat ≤ c.toNat) :
    (c - a).toNat = c.toNat - a.toNat := by
  have hc := c.toNat_lt
  rw [UInt16.toNat_sub]
  omega

/-- From a higher address the way up to a lower one leads around the end of the address space. -/
theorem toNat_sub_of_lt {a c : UInt16} (h : c.toNat < a.toNat) :
    (c - a).toNat = 0x10000 - a.toNat + c.toNat := by
  have ha := a.toNat_lt
  rw [UInt16.toNat_sub]
  omega

namespace Memory

/-! ### Runs of bytes -/

/-- The bytes stand in memory from an address on. -/
def Holds (m : Memory) : UInt16 → List UInt8 → Prop
  | _, [] => True
  | a, b :: bs => m.read a = b ∧ Holds m (a + 1) bs

theorem holds_cons {m : Memory} {a : UInt16} {b : UInt8} {bs : List UInt8} :
    m.Holds a (b :: bs) ↔ m.read a = b ∧ m.Holds (a + 1) bs :=
  Iff.rfl

theorem holds_append {m : Memory} {a : UInt16} {xs ys : List UInt8} :
    m.Holds a (xs ++ ys) ↔ m.Holds a xs ∧ m.Holds (a + UInt16.ofNat xs.length) ys := by
  induction xs generalizing a with
  | nil => simp [Holds]
  | cons x xs ih =>
    rw [List.cons_append, holds_cons, holds_cons, ih, List.length_cons, add_ofNat_succ, and_assoc]

/-- What is read after a run of bytes was written: the byte of the run, or outside of it what was
there before. -/
theorem read_writeBytes (m : Memory) (a c : UInt16) {bytes : List UInt8}
    (h : bytes.length ≤ 0x10000) :
    (m.writeBytes a bytes).read c = bytes[(c - a).toNat]?.getD (m.read c) := by
  induction bytes generalizing a m with
  | nil => rfl
  | cons b bs ih =>
    rw [List.length_cons] at h
    rw [writeBytes, ih _ _ (by omega)]
    by_cases hc : a = c
    · -- the rest is too short to come around to the first byte
      subst hc
      rw [List.getElem?_eq_none (le_toNat_sub_add_one a h), read_write_self, UInt16.sub_self]
      rfl
    · -- `c` is one closer to where the rest begins
      have hone : 1 ≤ (c - a).toNat := one_le_toNat_sub_of_ne hc
      obtain ⟨k, hk⟩ := Nat.exists_eq_add_of_le' hone
      rw [toNat_sub_add_one hone, hk, Nat.add_sub_cancel, List.getElem?_cons_succ,
        read_write_of_ne _ _ hc]

/-- A write changes nothing outside its run. -/
theorem read_writeBytes_of_le (m : Memory) {a c : UInt16} {bytes : List UInt8}
    (h : bytes.length ≤ (c - a).toNat) : (m.writeBytes a bytes).read c = m.read c := by
  have hlt := (c - a).toNat_lt
  rw [read_writeBytes m a c (by omega), List.getElem?_eq_none h]
  rfl

/-- Bytes hold where they were written, unless there are more of them than there are addresses. -/
theorem holds_writeBytes (m : Memory) (a : UInt16) {bytes : List UInt8}
    (h : bytes.length ≤ 0x10000) : (m.writeBytes a bytes).Holds a bytes := by
  induction bytes generalizing a m with
  | nil => trivial
  | cons b bs ih =>
    rw [List.length_cons] at h
    -- the rest is too short to come around to the first byte
    have hfar : bs.length ≤ (a - (a + 1)).toNat := le_toNat_sub_add_one a h
    rw [writeBytes, holds_cons, read_writeBytes_of_le _ hfar, read_write_self]
    exact ⟨rfl, ih _ _ (by omega)⟩

/-- Bytes still hold in a memory that agrees on their run. -/
theorem Holds.congr {m n : Memory} {a : UInt16} {bytes : List UInt8} (h : m.Holds a bytes)
    (heq : ∀ c, (c - a).toNat < bytes.length → n.read c = m.read c) (hl : bytes.length ≤ 0x10000) :
    n.Holds a bytes := by
  induction bytes generalizing a with
  | nil => trivial
  | cons b bs ih =>
    rw [List.length_cons] at heq hl
    obtain ⟨hb, hbs⟩ := h
    refine ⟨?_, ih hbs (fun c hc => heq c ?_) (by omega)⟩
    · rw [heq a (by rw [UInt16.sub_self]; exact Nat.succ_pos _), hb]
    · -- what is near `a + 1` is one further from `a`, because the run does not close up
      have ha := a.toNat_lt
      have hcl := c.toNat_lt
      rw [UInt16.toNat_sub, UInt16.toNat_add, UInt16.toNat_one] at hc
      rw [UInt16.toNat_sub]
      omega

theorem readBytes_succ (m : Memory) (a : UInt16) (n : Nat) :
    m.readBytes a (n + 1) = m.read a :: m.readBytes (a + 1) n := by
  have hshift : ((fun i => m.read (a + UInt16.ofNat i)) ∘ Nat.succ) =
      fun i => m.read (a + 1 + UInt16.ofNat i) := by
    funext i
    rw [Function.comp, Nat.succ_eq_add_one, add_ofNat_succ]
  rw [readBytes, readBytes, List.range_succ_eq_map, List.map_cons, List.map_map, hshift]
  simp

theorem mem_readBytes {m : Memory} {a : UInt16} {n : Nat} {b : UInt8} :
    b ∈ m.readBytes a n ↔ ∃ i < n, m.read (a + UInt16.ofNat i) = b := by
  simp [readBytes]

/-- Bytes hold exactly where they are read. -/
theorem holds_iff_readBytes {m : Memory} {a : UInt16} {bytes : List UInt8} :
    m.Holds a bytes ↔ m.readBytes a bytes.length = bytes := by
  induction bytes generalizing a with
  | nil => simp [Holds, readBytes]
  | cons b bs ih => rw [holds_cons, ih, List.length_cons, readBytes_succ, List.cons.injEq]

/-! ### Words and texts -/

theorem readWord_writeWord (m : Memory) (a w : UInt16) : (m.writeWord a w).readWord a = w := by
  have hne : a + 1 ≠ a := by
    intro h
    have hnat := congrArg UInt16.toNat h
    rw [UInt16.toNat_add, UInt16.toNat_one] at hnat
    have := a.toNat_lt
    omega
  rw [readWord, writeWord, read_write_of_ne _ _ hne, read_write_self, read_write_self,
    word_lowByte_highByte]

theorem read_writeWord_of_ne (m : Memory) {a c : UInt16} (w : UInt16) (h : a ≠ c)
    (h' : a + 1 ≠ c) : (m.writeWord a w).read c = m.read c := by
  rw [writeWord, read_write_of_ne _ _ h', read_write_of_ne _ _ h]

theorem writeWord_writeWord (m : Memory) (a v w : UInt16) :
    (m.writeWord a v).writeWord a w = m.writeWord a w := by
  refine ext_read fun c => ?_
  simp only [writeWord, read_write]
  split
  case isTrue => rfl
  case isFalse =>
    split
    case isTrue => rfl
    case isFalse => rfl

theorem writeWord_readWord (m : Memory) (a : UInt16) : m.writeWord a (m.readWord a) = m := by
  refine ext_read fun c => ?_
  simp only [readWord, writeWord, read_write, lowByte_word, highByte_word]
  split
  case isTrue h => rw [h]
  case isFalse =>
    split
    case isTrue h => rw [h]
    case isFalse => rfl

/-- A word written before some bytes stands before them. -/
theorem Holds.writeWord {m : Memory} {a : UInt16} {bytes : List UInt8} (h : m.Holds (a + 2) bytes)
    (hlength : bytes.length + 2 ≤ 0x10000) (w : UInt16) :
    (m.writeWord a w).Holds a ([lowByte w, highByte w] ++ bytes) := by
  have hshort : [lowByte w, highByte w].length ≤ 0x10000 := Nat.le_of_ble_eq_true rfl
  have hwritten : (m.writeWord a w).Holds a [lowByte w, highByte w] := m.holds_writeBytes a hshort
  refine holds_append.mpr ⟨hwritten, h.congr (fun c hc => ?_) (by omega)⟩
  -- what is close behind the word is too far from it to be written
  have hfar : [lowByte w, highByte w].length ≤ (c - a).toNat := by
    have hcl := c.toNat_lt
    have hal := a.toNat_lt
    simp only [UInt16.toNat_sub, UInt16.toNat_add, UInt16.reduceToNat] at hc ⊢
    simp only [List.length_cons, List.length_nil]
    omega
  exact m.read_writeBytes_of_le hfar

theorem Holds.readWord {m : Memory} {a : UInt16} {l h : UInt8} {rest : List UInt8}
    (hm : m.Holds a (l :: h :: rest)) : m.readWord a = word l h := by
  obtain ⟨hl, hh, -⟩ := hm
  rw [Memory.readWord, hl, hh]

theorem zeroTerminatedFrom_of_holds {m : Memory} {a : UInt16} {s : List UInt8}
    (h : m.Holds a (s ++ [0])) (hs : 0 ∉ s) (found : List UInt8) {limit : Nat}
    (hl : s.length < limit) :
    m.zeroTerminatedFrom a found limit = some (found.reverse ++ s) := by
  induction s generalizing a found limit with
  | nil =>
    obtain ⟨limit, rfl⟩ : ∃ k, limit = k + 1 := ⟨limit - 1, by omega⟩
    have h0 : m.read a = 0 := h.1
    simp [zeroTerminatedFrom, h0]
  | cons b s ih =>
    rw [List.length_cons] at hl
    obtain ⟨limit, rfl⟩ : ∃ k, limit = k + 1 := ⟨limit - 1, by omega⟩
    have hb : m.read a = b := h.1
    have hb0 : b ≠ 0 := fun hb0 => hs (hb0 ▸ List.mem_cons_self ..)
    -- by induction on the text, whose bytes are found last one first
    have hrest := ih h.2 (fun h0 => hs (List.mem_cons_of_mem _ h0)) (b :: found)
      (Nat.lt_of_succ_lt_succ hl)
    simp only [zeroTerminatedFrom, hb, if_neg hb0, hrest]
    simp

/-- A text that ends within the limit is found, without the zero behind it. -/
theorem Holds.text? {m : Memory} {a : UInt16} {s : List UInt8} (h : m.Holds a (s ++ [0]))
    (hs : 0 ∉ s) {limit : Nat} (hl : s.length < limit) : m.text? a limit = some s := by
  rw [Memory.text?, zeroTerminatedFrom_of_holds h hs [] hl]
  rfl

/-! ### Programs -/

theorem run_load_of_fits (m : Memory) {a : UInt16} {bytes : List UInt8}
    (h : a.toNat + bytes.length ≤ 0x10000) :
    (load a bytes).run m = .ok () (m.writeBytes a bytes) := by
  rw [load, if_neg (Nat.not_lt.mpr h)]
  rfl

/-- A program that does not fit is refused before any of its bytes is stored. -/
theorem run_load_of_lt (m : Memory) {a : UInt16} {bytes : List UInt8}
    (h : 0x10000 < a.toNat + bytes.length) :
    (load a bytes).run m = .error (.imageOutOfBounds a bytes.length 0 0x10000) m := by
  rw [load, if_pos h]
  rfl

end Memory

end Bench65
