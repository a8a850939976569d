import Bench65.Proofs.Execution
import Mathlib.Algebra.BigOperators.Group.List.Basic
import Mathlib.Algebra.GroupWithZero.Nat

/-!
# The hardware stack

Page 1 is a circle of 256 cells. Whatever the stack pointer, and wherever the end of the page
falls, pushes and pulls treat it as a list of bytes, the last one pushed first, as long as they pull
no more than they have pushed and leave no more than 256 bytes outstanding (`stack_nests`).

`Mirrors` ties the registers and the memory to such a list. One operation keeps it (`mirrors_push`,
`mirrors_pull`), and so does a sequence (`performAll_eq`). Bytes that lie below those of the
sequence stay where they are; an interrupt is the case where these are the three bytes that `BRK`
pushes and `RTI` pulls.
-/

namespace Bench65

/-! ### Operations -/

/-- An operation on the hardware stack. -/
inductive StackOperation where
  | push (b : UInt8)
  | pull
  | pushWord (w : UInt16)
  | pullWord

namespace StackOperation

/-- The number of bytes pushed. -/
def pushes : StackOperation → Nat
  | push _ => 1
  | pushWord _ => 2
  | pull | pullWord => 0

/-- The number of bytes pulled. -/
def pulls : StackOperation → Nat
  | pull => 1
  | pullWord => 2
  | push _ | pushWord _ => 0

/-- Operations that start with some bytes outstanding, never pull more than there are, and never
leave more than a limit. -/
def Disciplined (limit : Nat) : (outstanding : Nat) → List StackOperation → Prop
  | _, [] => True
  | outstanding, op :: ops =>
    op.pulls ≤ outstanding ∧ outstanding + op.pushes ≤ limit ∧
      Disciplined limit (outstanding + op.pushes - op.pulls) ops

instance Disciplined.decidable (limit : Nat) :
    ∀ (outstanding : Nat) (ops : List StackOperation),
      Decidable (Disciplined limit outstanding ops)
  | _, [] => isTrue trivial
  | outstanding, op :: ops =>
    have := Disciplined.decidable limit (outstanding + op.pushes - op.pulls) ops
    inferInstanceAs (Decidable (_ ∧ _ ∧ _))

/-- Operations that pull as many bytes as they push. -/
def Balanced (ops : List StackOperation) : Prop :=
  (ops.map pushes).sum = (ops.map pulls).sum

instance (ops : List StackOperation) : Decidable (Balanced ops) :=
  inferInstanceAs (Decidable (_ = _))

/-- The bytes that an operation pulls, a word's low byte first, and the registers and the memory
after it. -/
def perform (r : Registers) (m : Memory) : StackOperation → List UInt8 × Registers × Memory
  | push b =>
    let e := (Effect.of r).push b
    ([], e.registers, m.apply e.stores)
  | pull =>
    let (b, r) := r.pull m
    ([b], r, m)
  | pushWord w =>
    let e := (Effect.of r).pushWord w
    ([], e.registers, m.apply e.stores)
  | pullWord =>
    let (w, r) := r.pullWord m
    ([lowByte w, highByte w], r, m)

/-- What each of some operations pulls, and the registers and the memory after the last. -/
def performAll (r : Registers) (m : Memory) :
    List StackOperation → List (List UInt8) × Registers × Memory
  | [] => ([], r, m)
  | op :: ops =>
    let (pulled, r, m) := op.perform r m
    let (others, r, m) := performAll r m ops
    (pulled :: others, r, m)

/-- The same operation on a list of bytes, the last one pushed first: the bytes it pulls and those
it leaves. -/
def onList (bytes : List UInt8) : StackOperation → List UInt8 × List UInt8
  | push b => ([], b :: bytes)
  | pull => (bytes.take 1, bytes.drop 1)
  | pushWord w => ([], lowByte w :: highByte w :: bytes)
  | pullWord => (bytes.take 2, bytes.drop 2)

/-- What each of some operations pulls from a list of bytes, and the bytes left. -/
def allOnList (bytes : List UInt8) : List StackOperation → List (List UInt8) × List UInt8
  | [] => ([], bytes)
  | op :: ops =>
    let (pulled, bytes) := op.onList bytes
    let (others, bytes) := allOnList bytes ops
    (pulled :: others, bytes)

theorem performAll_cons (r : Registers) (m : Memory) (op : StackOperation)
    (ops : List StackOperation) :
    performAll r m (op :: ops) =
      ((op.perform r m).1 :: (performAll (op.perform r m).2.1 (op.perform r m).2.2 ops).1,
        (performAll (op.perform r m).2.1 (op.perform r m).2.2 ops).2) := rfl

theorem allOnList_cons (bytes : List UInt8) (op : StackOperation) (ops : List StackOperation) :
    allOnList bytes (op :: ops) =
      ((op.onList bytes).1 :: (allOnList (op.onList bytes).2 ops).1,
        (allOnList (op.onList bytes).2 ops).2) := rfl

theorem length_onList {op : StackOperation} {bytes : List UInt8} (h : op.pulls ≤ bytes.length) :
    (op.onList bytes).2.length = bytes.length + op.pushes - op.pulls := by
  cases op <;> simp [onList, pushes, pulls]

theorem length_allOnList {limit : Nat} {ops : List StackOperation} {bytes : List UInt8}
    (h : Disciplined limit bytes.length ops) :
    (allOnList bytes ops).2.length + (ops.map pulls).sum =
      bytes.length + (ops.map pushes).sum := by
  induction ops generalizing bytes with
  | nil => rfl
  | cons op ops ih =>
    obtain ⟨hpulls, -, hrest⟩ := h
    have hlength := length_onList hpulls
    rw [← hlength] at hrest
    have hsum := ih hrest
    simp only [allOnList, List.map_cons, List.sum_cons]
    omega

/-- A balanced sequence leaves nothing of its own behind. -/
theorem allOnList_of_balanced {limit : Nat} {ops : List StackOperation}
    (h : Disciplined limit 0 ops) (hbalanced : Balanced ops) : (allOnList [] ops).2 = [] := by
  have hempty : Disciplined limit ([] : List UInt8).length ops := h
  have hlength := length_allOnList hempty
  rw [hbalanced, List.length_nil] at hlength
  exact List.length_eq_zero_iff.mp (by omega)

end StackOperation

/-! ### The circle of cells -/

theorem toNat_stackCell (s : UInt8) : (stackCell s).toNat = 0x100 + s.toNat := by
  have hs := s.toNat_lt
  simp only [stackCell, UInt16.toNat_add, UInt8.toNat_toUInt16, UInt16.reduceToNat]
  omega

theorem stackCell_inj {s t : UInt8} : stackCell s = stackCell t ↔ s = t := by
  constructor
  · intro h
    have hnat := congrArg UInt16.toNat h
    rw [toNat_stackCell, toNat_stackCell] at hnat
    exact UInt8.toNat_inj.mp (by omega)
  · rintro rfl
    rfl

namespace Memory

variable {m : Memory} {s t : UInt8} {b : UInt8} {bytes : List UInt8}

/-- The bytes stand in the cells above a stack pointer, around the end of the page if need be. -/
def Stacked (m : Memory) : (s : UInt8) → List UInt8 → Prop
  | _, [] => True
  | s, b :: bytes => m.read (stackCell (s + 1)) = b ∧ Stacked m (s + 1) bytes

/-- A store to a cell further up than the bytes reach does not change them. -/
theorem Stacked.write (h : m.Stacked s bytes) (hfar : bytes.length ≤ (t - (s + 1)).toNat) :
    (m.write (stackCell t) b).Stacked s bytes := by
  induction bytes generalizing s with
  | nil => trivial
  | cons c bytes ih =>
    obtain ⟨hread, hrest⟩ := h
    have ht := t.toNat_lt
    have hs := s.toNat_lt
    -- the cell lies farther up than all bytes of the list, counted around the page
    have hne : t ≠ s + 1 := by
      rintro rfl
      simp at hfar
    have hrest' : bytes.length ≤ (t - (s + 1 + 1)).toNat := by
      rw [List.length_cons] at hfar
      simp only [UInt8.toNat_sub, UInt8.toNat_add, UInt8.reduceToNat] at hfar ⊢
      omega
    refine ⟨?_, ih hrest hrest'⟩
    rw [read_write_of_ne _ _ (mt stackCell_inj.mp hne), hread]

/-- What is pushed is on top of what was there, as long as there is a cell left for it. -/
theorem Stacked.push (h : m.Stacked s bytes) (hroom : bytes.length < 256) (b : UInt8) :
    (m.write (stackCell s) b).Stacked (s - 1) (b :: bytes) := by
  have hlast : (s - (s + 1)).toNat = 255 := by
    have hs := s.toNat_lt
    simp only [UInt8.toNat_sub, UInt8.toNat_add, UInt8.reduceToNat]
    omega
  refine ⟨?_, ?_⟩
  · rw [UInt8.sub_add_cancel, read_write_self]
  · rw [UInt8.sub_add_cancel]
    exact h.write (by omega)

end Memory

/-! ### Registers and memory beside a list -/

/-- The addresses of page 1. -/
def stackPage : Set UInt16 :=
  {a | 0x100 ≤ a.toNat ∧ a.toNat < 0x200}

theorem stackCell_mem_stackPage (s : UInt8) : stackCell s ∈ stackPage := by
  have hs := s.toNat_lt
  have hcell := toNat_stackCell s
  constructor <;> omega

/-- While the list has become another one, the machine has followed it: the bytes stand on the
stack, the stack pointer has moved with their number, and nothing else has changed. -/
structure Mirrors (r r' : Registers) (m m' : Memory) (bytes bytes' : List UInt8) : Prop where
  stacked : m'.Stacked r'.s bytes'
  level : r'.s + UInt8.ofNat bytes'.length = r.s + UInt8.ofNat bytes.length
  registers : r' = { r with s := r'.s }
  memory : ∀ a, a ∉ stackPage → m'.read a = m.read a

namespace Mirrors

variable {r r' r'' : Registers} {m m' m'' : Memory} {bytes bytes' bytes'' : List UInt8}

theorem refl (h : m.Stacked r.s bytes) : Mirrors r r m m bytes bytes :=
  ⟨h, rfl, rfl, fun _ _ => rfl⟩

theorem trans (h : Mirrors r r' m m' bytes bytes') (h' : Mirrors r' r'' m' m'' bytes' bytes'') :
    Mirrors r r'' m m'' bytes bytes'' := by
  refine ⟨h'.stacked, h'.level.trans h.level, ?_, fun a ha => ?_⟩
  · have hr := h'.registers
    rw [h.registers] at hr
    exact hr
  · rw [h'.memory a ha, h.memory a ha]

end Mirrors

section Steps

variable {r : Registers} {m : Memory} {b : UInt8} {bytes : List UInt8}

theorem mirrors_push (h : m.Stacked r.s bytes) (hroom : bytes.length < 256) (b : UInt8) :
    Mirrors r { r with s := r.s - 1 } m (m.write (stackCell r.s) b) bytes (b :: bytes) := by
  refine ⟨h.push hroom b, ?_, rfl, fun a ha => ?_⟩
  · show r.s - 1 + UInt8.ofNat (bytes.length + 1) = _
    rw [Nat.add_comm, UInt8.ofNat_add, ← UInt8.add_assoc]
    exact congrArg (· + _) (UInt8.sub_add_cancel r.s 1)
  · refine Memory.read_write_of_ne _ _ ?_
    rintro rfl
    exact ha (stackCell_mem_stackPage _)

theorem mirrors_pull (h : m.Stacked r.s (b :: bytes)) :
    r.pull m = (b, { r with s := r.s + 1 }) ∧
      Mirrors r { r with s := r.s + 1 } m m (b :: bytes) bytes := by
  obtain ⟨hread, hrest⟩ := h
  refine ⟨?_, hrest, ?_, rfl, fun _ _ => rfl⟩
  · rw [Registers.pull, hread]
  · show r.s + 1 + UInt8.ofNat bytes.length = r.s + UInt8.ofNat (bytes.length + 1)
    rw [Nat.add_comm, UInt8.ofNat_add, ← UInt8.add_assoc]
    rfl

theorem mirrors_pullWord {low high : UInt8} (h : m.Stacked r.s (low :: high :: bytes)) :
    r.pullWord m = (word low high, { r with s := r.s + 1 + 1 }) ∧
      Mirrors r { r with s := r.s + 1 + 1 } m m (low :: high :: bytes) bytes := by
  obtain ⟨hlow, hfirst⟩ := mirrors_pull h
  obtain ⟨hhigh, hsecond⟩ := mirrors_pull hfirst.stacked
  refine ⟨?_, hfirst.trans hsecond⟩
  rw [Registers.pullWord, hlow]
  dsimp only
  rw [hhigh]

end Steps

/-! ### Sequences -/

namespace StackOperation

variable {r : Registers} {m : Memory} {limit : Nat} {top below : List UInt8}

/-- An operation pulls what it pulls from the list, and the machine follows the list. -/
theorem perform_eq {op : StackOperation} (h : m.Stacked r.s (top ++ below))
    (hpulls : op.pulls ≤ top.length) (hroom : (top ++ below).length + op.pushes ≤ 256) :
    (op.perform r m).1 = (op.onList top).1 ∧
      Mirrors r (op.perform r m).2.1 m (op.perform r m).2.2 (top ++ below)
        ((op.onList top).2 ++ below) := by
  -- a word is two bytes, the high one pushed first and pulled last
  cases op with
  | push b => exact ⟨rfl, mirrors_push h (by simp only [pushes] at hroom; omega) b⟩
  | pushWord w =>
    simp only [pushes] at hroom
    have hhigh := mirrors_push h (by omega) (highByte w)
    have hlow := mirrors_push hhigh.stacked
      (by simp only [List.length_cons]; omega) (lowByte w)
    exact ⟨rfl, hhigh.trans hlow⟩
  | pull =>
    obtain ⟨b, top, rfl⟩ := List.exists_cons_of_length_pos hpulls
    obtain ⟨hpull, hmirrors⟩ := mirrors_pull h
    simp only [perform, onList, hpull]
    exact ⟨rfl, hmirrors⟩
  | pullWord =>
    match top, hpulls with
    | low :: high :: top, _ =>
      obtain ⟨hpull, hmirrors⟩ := mirrors_pullWord h
      simp only [perform, onList, hpull, lowByte_word, highByte_word]
      exact ⟨rfl, hmirrors⟩

/-- A sequence pulls what it pulls from a list, and the machine follows the list. What lies below is
not touched. -/
theorem performAll_eq {ops : List StackOperation} (h : m.Stacked r.s (top ++ below))
    (hops : Disciplined limit top.length ops) (hlimit : limit + below.length ≤ 256) :
    (performAll r m ops).1 = (allOnList top ops).1 ∧
      Mirrors r (performAll r m ops).2.1 m (performAll r m ops).2.2 (top ++ below)
        ((allOnList top ops).2 ++ below) := by
  -- by induction on the operations, over any state that has the list on its stack
  induction ops generalizing r m top with
  | nil => exact ⟨rfl, .refl h⟩
  | cons op ops ih =>
    obtain ⟨hpulls, hpushes, hrest⟩ := hops
    have hroom : (top ++ below).length + op.pushes ≤ 256 := by
      rw [List.length_append]
      omega
    obtain ⟨hpulled, hfirst⟩ := perform_eq h hpulls hroom
    -- the discipline of the other operations speaks of the list that this one leaves
    rw [← length_onList hpulls] at hrest
    obtain ⟨hothers, hlater⟩ := ih hfirst.stacked hrest
    rw [performAll_cons, allOnList_cons]
    refine ⟨?_, hfirst.trans hlater⟩
    rw [hpulled, hothers]

end StackOperation

/-! ### Interrupts -/

/-- The copy of the status register that an interrupt saves is restored without the break bit. -/
theorem Status.ofStack_toStack :
    ∀ p : Status, ofStack p.toStack = (p.set breakBit false).set unused true := by
  decide +kernel

section Interrupts

variable (variant : Variant) (r : Registers) (m : Memory) (pc : UInt16)

/-- An interrupt leaves three bytes: the status, and the address to return to. -/
theorem mirrors_softwareInterrupt :
    let e := Effect.softwareInterrupt variant r m pc
    Mirrors r { r with s := e.registers.s } m (m.apply e.stores) []
      [r.p.toStack, lowByte (pc + 2), highByte (pc + 2)] := by
  have hempty : m.Stacked r.s [] := trivial
  have hhigh := mirrors_push hempty (by decide) (highByte (pc + 2))
  have hlow := mirrors_push hhigh.stacked (Nat.lt_of_sub_eq_succ rfl) (lowByte (pc + 2))
  have hstatus := mirrors_push hlow.stacked (Nat.lt_of_sub_eq_succ rfl) r.p.toStack
  exact (hhigh.trans hlow).trans hstatus

theorem returnFromInterrupt_of_stacked {p : UInt8}
    (h : m.Stacked r.s [p, lowByte pc, highByte pc]) :
    r.returnFromInterrupt m = { r with s := r.s + 1 + 1 + 1, p := Status.ofStack p, pc } := by
  obtain ⟨hstatus, hfirst⟩ := mirrors_pull h
  obtain ⟨haddress, -⟩ := mirrors_pullWord hfirst.stacked
  rw [Registers.returnFromInterrupt, hstatus]
  dsimp only
  rw [haddress, word_lowByte_highByte]

/-- The handler runs with interrupts masked. -/
theorem get_interrupt_softwareInterrupt :
    (Effect.softwareInterrupt variant r m pc).registers.p.get Status.interrupt = true := by
  have hmasked : (r.p.set Status.interrupt true).get Status.interrupt = true :=
    Status.get_set_self (by decide) r.p true
  cases variant with
  | nmos => exact hmasked
  | cmos =>
    have hother := Status.get_set_of_ne (f := Status.decimal) (g := Status.interrupt) (by decide)
      (by decide) (by decide) (r.p.set Status.interrupt true) false
    exact hother.trans hmasked

end Interrupts

open StackOperation

/-- **The stack is a stack.** Operations that pull no more than they have pushed and leave at most
256 bytes outstanding pull what they would pull from a list. A balanced sequence restores the stack
pointer, and nothing outside page 1 changes. So an interrupt handler that is balanced and leaves at
most 253 bytes outstanding returns to where the interrupt was, with the status it had. -/
theorem stack_nests (variant : Variant) (r : Registers) (m : Memory) (ops : List StackOperation) :
    (Disciplined 256 0 ops →
      (performAll r m ops).1 = (allOnList [] ops).1 ∧
      (performAll r m ops).2.1 =
        { r with s := r.s - UInt8.ofNat (allOnList [] ops).2.length } ∧
      (Balanced ops → (performAll r m ops).2.1 = r) ∧
      ∀ a, a ∉ stackPage → (performAll r m ops).2.2.read a = m.read a) ∧
    (Disciplined 253 0 ops → Balanced ops → ∀ pc : UInt16,
      let e := Effect.softwareInterrupt variant r m pc
      let after := performAll e.registers (m.apply e.stores) ops
      e.registers.p.get Status.interrupt = true ∧
      (variant = .cmos → e.registers.p.get Status.decimal = false) ∧
      after.2.1 = e.registers ∧
      after.2.1.returnFromInterrupt after.2.2 =
        { r with
          pc := pc + 2
          p := (r.p.set Status.breakBit false).set Status.unused true }) := by
  constructor
  · intro hops
    have hempty : m.Stacked r.s ([] ++ []) := trivial
    obtain ⟨hpulled, hmirrors⟩ := performAll_eq hempty hops (Nat.le_refl 256)
    have hlevel := hmirrors.level
    have hregisters := hmirrors.registers
    rw [List.append_nil] at hlevel
    -- the pointer has come down by as many bytes as are left on the list
    have hs : (performAll r m ops).2.1.s = r.s - UInt8.ofNat (allOnList [] ops).2.length := by
      rw [← UInt8.add_sub_cancel (performAll r m ops).2.1.s, hlevel]
      exact congrArg (· - _) (UInt8.add_zero r.s)
    rw [hs] at hregisters
    refine ⟨hpulled, hregisters, fun hbalanced => ?_, hmirrors.memory⟩
    rw [hregisters, allOnList_of_balanced hops hbalanced]
    exact congrArg (fun s => { r with s }) (UInt8.sub_zero r.s)
  · intro hops hbalanced pc e after
    have hentry := mirrors_softwareInterrupt variant r m pc
    -- the three bytes of the interrupt lie below everything that follows
    have hstart : (m.apply e.stores).Stacked e.registers.s
        ([] ++ [r.p.toStack, lowByte (pc + 2), highByte (pc + 2)]) := hentry.stacked
    obtain ⟨-, hmirrors⟩ := performAll_eq hstart hops (Nat.le_refl 256)
    rw [allOnList_of_balanced hops hbalanced] at hmirrors
    have hs : after.2.1.s = e.registers.s := (UInt8.add_left_inj _).mp hmirrors.level
    have hregisters : after.2.1 = e.registers := by
      rw [hmirrors.registers]
      exact congrArg (fun s => { e.registers with s }) hs
    have hstacked : after.2.2.Stacked after.2.1.s
        [r.p.toStack, lowByte (pc + 2), highByte (pc + 2)] := hmirrors.stacked
    have hreturn := returnFromInterrupt_of_stacked after.2.1 after.2.2 (pc + 2) hstacked
    refine ⟨?_, ?_, hregisters, ?_⟩
    · exact get_interrupt_softwareInterrupt variant r m pc
    · rintro rfl
      exact Status.get_set_self (by decide) (r.p.set Status.interrupt true) false
    · have hback : e.registers.s + 1 + 1 + 1 = r.s := by
        show r.s - 1 - 1 - 1 + 1 + 1 + 1 = r.s
        rw [UInt8.sub_add_cancel, UInt8.sub_add_cancel, UInt8.sub_add_cancel]
      rw [hreturn, hregisters, hback, Status.ofStack_toStack]
      rfl

/-- A word that is pushed around the end of the page and pulled a byte at a time. -/
theorem stack_nests_concrete :
    let r : Registers := { (default : Registers) with s := 0x01, pc := 0x8000 }
    let m := Memory.filled 0xFF
    let ops : List StackOperation := [.push 0x11, .pushWord 0x2233, .pull, .pullWord]
    let e := Effect.softwareInterrupt .cmos r m r.pc
    (performAll r m ops).1 = [[], [], [0x33], [0x22, 0x11]] ∧
      (performAll r m ops).2.1 = r ∧
      (performAll e.registers (m.apply e.stores) ops).2.1 = e.registers ∧
      e.registers.p.get Status.decimal = false := by
  intro r m ops e
  have hopen : Disciplined 256 0 ops := by decide
  have hhandler : Disciplined 253 0 ops := by decide
  have hbalanced : Balanced ops := by decide
  obtain ⟨hstack, hinterrupt⟩ := stack_nests .cmos r m ops
  obtain ⟨hpulled, -, hregisters, -⟩ := hstack hopen
  obtain ⟨-, hdecimal, hafter, -⟩ := hinterrupt hhandler hbalanced r.pc
  exact ⟨hpulled, hregisters hbalanced, hafter, hdecimal rfl⟩

end Bench65
