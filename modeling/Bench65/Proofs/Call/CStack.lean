import Bench65.Call.CStack
import Bench65.Proofs.Memory
import Mathlib.Data.Set.Insert

/-!
# The pointer of the C stack

The pointer reads as it was stored (`pointer_setPointer`), and storing it changes nothing but its
own two cells (`read_setPointer`), both of them in the zero page.

A push stores the pointer after the word, so that the pointer is right even where the word went into
its cells. As long as there is room below the pointer, pushes change nothing at or above it
(`read_foldl_push`).
-/

namespace Bench65.CStack

/-- The addresses of the stack pointer. -/
def addresses (s : CStack) : Set Nat :=
  {s.pointerCell.toNat, s.pointerCell.toNat + 1}

/-- A pointer that is kept below `$FF` has both its bytes in the zero page. -/
theorem toNat_pointerCell_lt {s : CStack} (h : s.pointerCell ≠ 0xFF) :
    s.pointerCell.toNat < 0xFF := by
  have hmax := s.pointerCell.toNat_lt
  have hne : s.pointerCell.toNat ≠ 0xFF := fun heq => h (UInt8.toNat_inj.mp heq)
  omega

theorem not_mem_addresses {s : CStack} (hcell : s.pointerCell.toNat < 0xFF) {n : Nat}
    (hn : 0x100 ≤ n) : n ∉ s.addresses := by
  rintro (heq | heq)
  · omega
  · rw [Set.mem_singleton_iff] at heq
    omega

theorem toNat_pointerCell_add_one {s : CStack} (hcell : s.pointerCell.toNat < 0xFF) :
    (s.pointerCell.toUInt16 + 1).toNat = s.pointerCell.toNat + 1 := by
  rw [UInt16.toNat_add, UInt8.toNat_toUInt16, UInt16.toNat_one]
  omega

theorem pointer_setPointer (s : CStack) (m : Memory) (p : UInt16) :
    s.pointer (s.setPointer m p) = p :=
  m.readWord_writeWord _ _

theorem setPointer_setPointer (s : CStack) (m : Memory) (p q : UInt16) :
    s.setPointer (s.setPointer m p) q = s.setPointer m q :=
  m.writeWord_writeWord _ _ _

theorem setPointer_pointer (s : CStack) (m : Memory) : s.setPointer m (s.pointer m) = m :=
  m.writeWord_readWord _

/-- Storing the pointer changes nothing else. -/
theorem read_setPointer {s : CStack} (hcell : s.pointerCell.toNat < 0xFF) (m : Memory) (p : UInt16)
    {a : UInt16} (ha : a.toNat ∉ s.addresses) : (s.setPointer m p).read a = m.read a := by
  refine m.read_writeWord_of_ne p ?_ ?_
  · rintro rfl
    exact ha (.inl (UInt8.toNat_toUInt16 _))
  · rintro rfl
    exact ha (.inr (toNat_pointerCell_add_one hcell))

/-- A change of other cells does not move the pointer. -/
theorem pointer_congr {s : CStack} (hcell : s.pointerCell.toNat < 0xFF) {m n : Memory}
    (h : ∀ a : UInt16, a.toNat ∈ s.addresses → n.read a = m.read a) :
    s.pointer n = s.pointer m := by
  rw [pointer, pointer, Memory.readWord, Memory.readWord, h _ (.inl (UInt8.toNat_toUInt16 _)),
    h _ (.inr (toNat_pointerCell_add_one hcell))]

theorem push_eq (s : CStack) (m : Memory) (w : UInt16) :
    s.push m w = s.setPointer (m.writeWord (s.pointer m - 2) w) (s.pointer m - 2) := rfl

theorem pop_eq (s : CStack) (m : Memory) :
    s.pop m = (m.readWord (s.pointer m), s.setPointer m (s.pointer m + 2)) := rfl

/-! ### Pushes -/

theorem pointer_push (s : CStack) (m : Memory) (w : UInt16) :
    s.pointer (s.push m w) = s.pointer m - 2 :=
  s.pointer_setPointer _ _

theorem toNat_pointer_push {s : CStack} {m : Memory} (hroom : 2 ≤ (s.pointer m).toNat)
    (w : UInt16) : (s.pointer (s.push m w)).toNat = (s.pointer m).toNat - 2 := by
  rw [pointer_push]
  exact toNat_sub_of_le (a := 2) hroom

variable {s : CStack} (hcell : s.pointerCell.toNat < 0xFF) {m : Memory} {a : UInt16}
include hcell

/-- A push that has room changes nothing at or above the old pointer but the pointer itself. -/
theorem read_push (hroom : 2 ≤ (s.pointer m).toNat) (w : UInt16)
    (hle : (s.pointer m).toNat ≤ a.toNat) (ha : a.toNat ∉ s.addresses) :
    (s.push m w).read a = m.read a := by
  have hp := toNat_pointer_push hroom w
  rw [pointer_push] at hp
  rw [push, read_setPointer hcell _ _ ha]
  -- the word lies below the pointer, and the address does not
  refine m.read_writeWord_of_ne w ?_ ?_
  · rintro rfl
    omega
  · rintro rfl
    rw [UInt16.toNat_add, UInt16.toNat_one] at hle
    omega

/-- So do several, as long as there is room for all of them. -/
theorem read_foldl_push {words : List UInt16} (hroom : 2 * words.length ≤ (s.pointer m).toNat)
    (hle : (s.pointer m).toNat ≤ a.toNat) (ha : a.toNat ∉ s.addresses) :
    (words.foldl s.push m).read a = m.read a := by
  induction words generalizing m with
  | nil => rfl
  | cons w words ih =>
    rw [List.length_cons] at hroom
    have hp := toNat_pointer_push (s := s) (m := m) (by omega) w
    rw [List.foldl_cons, ih (by omega) (by omega), read_push hcell (by omega) w hle ha]

end Bench65.CStack
