import Bench65.Cpu.Status

/-!
# Flags that change and flags that do not

`Status.masks` lists the eight bits of the register, each by its mask. A bit that is set or cleared
reads back (`get_set_self`), and all others read as before (`get_set_of_ne`).

`AgreeExcept changed p q` says that two registers agree in every bit outside a list: what an
operation promises that may only change the flags of that list.

Two of the bits are no flags. A register is `Canonical` if it stores them as it is read: bit 5 set
and bit 4 clear.
-/

namespace Bench65.Status

/-- The bits of the register, lowest first. -/
def masks : List UInt8 :=
  [carry, zero, interrupt, decimal, breakBit, unused, overflow, negative]

theorem ne_zero_of_mem_masks {f : UInt8} (hf : f ∈ masks) : f ≠ 0 := by
  have hall : masks.all (· ≠ 0) = true := by decide
  exact of_decide_eq_true (List.all_eq_true.mp hall f hf)

theorem and_eq_zero_of_mem_masks {f g : UInt8} (hf : f ∈ masks) (hg : g ∈ masks) (hne : g ≠ f) :
    g &&& f = 0 := by
  have hall : masks.all (fun f => masks.all fun g => g = f ∨ g &&& f = 0) = true := by decide
  have hboth := List.all_eq_true.mp (List.all_eq_true.mp hall f hf) g hg
  exact (of_decide_eq_true hboth).resolve_left hne

/-! ### Bytes, bit by bit -/

theorem or_and_self (a b : UInt8) : (a ||| b) &&& b = b := by
  apply UInt8.toBitVec_inj.mp
  ext i hi
  simp only [UInt8.toBitVec_and, UInt8.toBitVec_or, BitVec.getElem_and, BitVec.getElem_or]
  cases a.toBitVec[i] <;> cases b.toBitVec[i] <;> rfl

theorem and_or_distrib_left (a b c : UInt8) : a &&& (b ||| c) = a &&& b ||| a &&& c := by
  apply UInt8.toBitVec_inj.mp
  ext i hi
  simp only [UInt8.toBitVec_and, UInt8.toBitVec_or, BitVec.getElem_and, BitVec.getElem_or]
  exact Bool.and_or_distrib_left ..

theorem and_not_eq_self {a b : UInt8} (h : a &&& b = 0) : a &&& ~~~b = a := by
  apply UInt8.toBitVec_inj.mp
  ext i hi
  have hbit : (a &&& b).toBitVec[i] = false := by simp [h]
  simp only [UInt8.toBitVec_and, BitVec.getElem_and] at hbit
  simp only [UInt8.toBitVec_and, UInt8.toBitVec_not, BitVec.getElem_and, BitVec.getElem_not]
  cases ha : a.toBitVec[i] with
  | false => rfl
  | true =>
    rw [ha, Bool.true_and] at hbit
    rw [hbit]
    rfl

/-! ### One flag -/

variable {p q r : Status} {f g : UInt8}

theorem get_set_self (hf : f ∈ masks) (p : Status) (on : Bool) : (p.set f on).get f = on := by
  unfold set get
  cases on with
  | true => simp [or_and_self]
  | false =>
    have hclear : p.raw &&& ~~~f &&& f = 0 := by
      rw [UInt8.and_assoc, UInt8.not_and_self, UInt8.and_zero]
    simp [hclear, (ne_zero_of_mem_masks hf).symm]

/-- A flag does not notice that another one is set or cleared. -/
theorem get_set_of_ne (hf : f ∈ masks) (hg : g ∈ masks) (hne : g ≠ f) (p : Status) (on : Bool) :
    (p.set f on).get g = p.get g := by
  have hand := and_eq_zero_of_mem_masks hf hg hne
  have hor : (p.raw ||| f) &&& g = p.raw &&& g := by
    rw [UInt8.and_comm, and_or_distrib_left, hand, UInt8.or_zero, UInt8.and_comm]
  have hnot : p.raw &&& ~~~f &&& g = p.raw &&& g := by
    rw [UInt8.and_assoc, UInt8.and_comm (~~~f), and_not_eq_self hand]
  unfold set get
  cases on with
  | true => simp [hor]
  | false => simp [hnot]

/-! ### Registers that agree -/

/-- The registers agree in every bit but those of a list. -/
def AgreeExcept (changed : List UInt8) (p q : Status) : Prop :=
  ∀ f ∈ masks, f ∉ changed → q.get f = p.get f

section AgreeExcept

variable {changed : List UInt8}

theorem AgreeExcept.refl (changed : List UInt8) (p : Status) : AgreeExcept changed p p :=
  fun _ _ _ => rfl

theorem AgreeExcept.trans (h : AgreeExcept changed p q) (h' : AgreeExcept changed q r) :
    AgreeExcept changed p r := by
  intro f hf hnot
  rw [h' f hf hnot, h f hf hnot]

/-- All bits may have changed. -/
theorem agreeExcept_masks (p q : Status) : AgreeExcept masks p q :=
  fun _ hf hnot => absurd hf hnot

theorem AgreeExcept.set (h : AgreeExcept changed p q) (hf : f ∈ masks) (hchanged : f ∈ changed)
    (on : Bool) : AgreeExcept changed p (q.set f on) := by
  intro g hg hnot
  have hne : g ≠ f := fun heq => hnot (heq ▸ hchanged)
  rw [get_set_of_ne hf hg hne, h g hg hnot]

theorem AgreeExcept.setNZ (h : AgreeExcept changed p q) (hzero : zero ∈ changed)
    (hnegative : negative ∈ changed) (value : UInt8) : AgreeExcept changed p (q.setNZ value) :=
  (h.set (by decide) hzero _).set (by decide) hnegative _

end AgreeExcept

/-! ### The bits that are no flags -/

/-- Bit 5 is stored as one and bit 4 as zero. -/
structure Canonical (p : Status) : Prop where
  get_unused : p.get unused = true
  get_breakBit : p.get breakBit = false

/-- What leaves these two bits alone leaves the register canonical. -/
theorem Canonical.of_agreeExcept {changed : List UInt8} (hp : p.Canonical)
    (h : AgreeExcept changed p q) (hunused : unused ∉ changed) (hbreak : breakBit ∉ changed) :
    q.Canonical where
  get_unused := (h unused (by decide) hunused).trans hp.get_unused
  get_breakBit := (h breakBit (by decide) hbreak).trans hp.get_breakBit

/-- Whatever byte comes back from the stack, the register is canonical. -/
theorem canonical_ofStack (b : UInt8) : (ofStack b).Canonical := by
  have heq : ofStack b = ((⟨b⟩ : Status).set breakBit false).set unused true := rfl
  rw [heq]
  constructor
  · exact get_set_self (by decide) _ _
  · rw [get_set_of_ne (by decide) (by decide) (by decide)]
    exact get_set_self (by decide) _ _

/-- A copy pushed has both bits set. -/
theorem toStack_and (p : Status) :
    p.toStack &&& (breakBit ||| unused) = breakBit ||| unused :=
  or_and_self _ _

end Bench65.Status
