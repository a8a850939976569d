import Bench65.Proofs.Machine.Accounting
import Bench65.Proofs.Program.Loading

/-!
# What a program sees of its arguments

* `arguments_served`: as long as the argument block is intact, the `args` hook hands the program its
  arguments: it stores the address of a table that leads to them and to nothing else, returns their
  number, and sees to it that the C stack lies below them. What is pushed from then on leaves them
  alone, as long as there is room.

A table is followed as a C program follows it, from pointer to pointer until it meets the null
pointer (`Memory.LeadsTo`).
-/

namespace Bench65

/-! ### Following a table -/

namespace Memory

/-- The table of pointers at an address leads to some texts, each with its zero, and there is a null
pointer behind the last. -/
def LeadsTo (m : Memory) : UInt16 → List (List UInt8) → Prop
  | a, [] => m.readWord a = 0
  | a, text :: texts =>
    m.readWord a ≠ 0 ∧ 0 ∉ text ∧ m.Holds (m.readWord a) (text ++ [0]) ∧ LeadsTo m (a + 2) texts

variable {m : Memory}

/-- No two texts begin at the same address. -/
theorem Holds.text_unique {a : UInt16} {s t : List UInt8} (hs : m.Holds a (s ++ [0])) (hs0 : 0 ∉ s)
    (ht : m.Holds a (t ++ [0])) (ht0 : 0 ∉ t) : s = t := by
  have hlimit : s.length < s.length + t.length + 1 := by omega
  have hlimit' : t.length < s.length + t.length + 1 := by omega
  have heq := (hs.text? hs0 hlimit).symm.trans (ht.text? ht0 hlimit')
  exact Option.some.inj heq

/-- A table leads to one list of texts only. -/
theorem LeadsTo.unique {a : UInt16} {texts texts' : List (List UInt8)} (h : m.LeadsTo a texts)
    (h' : m.LeadsTo a texts') : texts = texts' := by
  induction texts generalizing a texts' with
  | nil =>
    cases texts' with
    | nil => rfl
    | cons text' texts' => exact absurd h h'.1
  | cons text texts ih =>
    cases texts' with
    | nil => exact absurd h' h.1
    | cons text' texts' =>
      obtain ⟨-, hzero, hholds, hrest⟩ := h
      obtain ⟨-, hzero', hholds', hrest'⟩ := h'
      rw [hholds.text_unique hzero hholds' hzero', ih hrest hrest']

end Memory

namespace ArgumentBlock

variable {b : ArgumentBlock} {m : Memory} {args : List (List UInt8)}

theorem slot_add_two (b : ArgumentBlock) (i : Nat) : b.slot i + 2 = b.slot (i + 1) := by
  rw [slot, slot, UInt16.ofNat_add, UInt16.mul_add, UInt16.add_assoc]
  rfl

/-- From any of its pointers on, the table of a block leads to the arguments that are left. -/
theorem InMemory.leadsTo_slot (h : b.InMemory m args) {i : Nat} (hi : i ≤ args.length) :
    m.LeadsTo (b.slot i) (args.drop i) := by
  induction hi using Nat.decreasingInduction with
  | self =>
    rw [List.drop_length]
    exact h.readWord_null
  | of_succ i hi ih =>
    rw [List.drop_eq_getElem_cons hi, Memory.LeadsTo, h.readWord_slot hi, slot_add_two]
    exact ⟨h.pointer_ne_zero hi, h.zero_not_mem _ (List.getElem_mem hi), h.holds_text hi, ih⟩

/-- The table of a block leads to its arguments, and to nothing else. -/
theorem InMemory.leadsTo_iff (h : b.InMemory m args) (texts : List (List UInt8)) :
    m.LeadsTo b.tableAddress texts ↔ texts = args := by
  have hfirst : b.slot 0 = b.tableAddress := UInt16.add_zero _
  have hargs := h.leadsTo_slot (Nat.zero_le _)
  rw [List.drop_zero, hfirst] at hargs
  constructor
  · intro htexts
    exact htexts.unique hargs
  · rintro rfl
    exact hargs

theorem length_le_textSize (args : List (List UInt8)) : args.length ≤ textSize args := by
  induction args with
  | nil => exact Nat.le_refl _
  | cons arg args ih =>
    rw [List.length_cons, textSize_cons]
    omega

/-- There are never so many arguments that their number would be negative. -/
theorem InMemory.signedWord_count (h : b.InMemory m args) :
    signedWord b.count = args.length := by
  have hsize := h.start_add_sizes
  have hstop := b.stop.toNat_lt
  have htexts := length_le_textSize args
  have hcount := h.toNat_count
  rw [signedWord_of_toNat_lt (by omega), hcount]

/-! ### The bytes of a block -/

/-- The bytes that stand where the block is. -/
def stored (b : ArgumentBlock) (m : Memory) : List UInt8 :=
  m.readBytes b.start (b.stop - b.start).toNat

theorem InMemory.toNat_stop_sub_start (h : b.InMemory m args) :
    (b.stop - b.start).toNat = size args := by
  have hsize := h.start_add_size
  rw [toNat_sub_of_le (by omega)]
  omega

/-- The block stays in a memory that has the same bytes there. -/
theorem InMemory.of_stored (h : b.InMemory m args) {n : Memory} (heq : b.stored n = b.stored m) :
    b.InMemory n args := by
  refine { h with holds := ?_ }
  rw [stored, stored, h.toNat_stop_sub_start, ← length_bytes b.start args,
    Memory.holds_iff_readBytes.mp h.holds] at heq
  exact Memory.holds_iff_readBytes.mpr heq

theorem InMemory.stored_eq (h : b.InMemory m args) {n : Memory}
    (heq : ∀ a : UInt16, a.toNat ∈ b.addresses → n.read a = m.read a) :
    b.stored n = b.stored m := by
  have hsize := h.start_add_size
  have hstop := b.stop.toNat_lt
  rw [stored, stored, h.toNat_stop_sub_start]
  refine List.map_congr_left fun i hi => heq _ ?_
  rw [List.mem_range] at hi
  rw [toNat_add_ofNat (by omega)]
  exact ⟨Nat.le_add_right _ _, by omega⟩

/-! ### The hook -/

/-- What a caller of the `args` hook finds, who wants the address of the table at `dest`. Memory was
`m` before the call and is `m'` after it, and the program has the arguments `args`. -/
structure Served (b : ArgumentBlock) (args : List (List UInt8)) (s : CStack) (dest : UInt16)
    (m m' : Memory) : Prop where
  readWord_eq : m'.readWord dest = b.tableAddress
  /-- The table leads to the arguments. -/
  leadsTo_iff : ∀ texts, m'.LeadsTo b.tableAddress texts ↔ texts = args
  /-- The C stack begins below the block. -/
  pointer_eq : (s.pointer m').toNat = min (s.pointer m).toNat b.start.toNat
  /-- Whatever is pushed onto it leaves the block alone, as long as there is room. -/
  pushes : ∀ words : List UInt16, 2 * words.length ≤ (s.pointer m').toNat →
    b.stored (words.foldl s.push m') = b.stored m ∧ b.readBack (words.foldl s.push m') = args

/-- The memory after the hook has stored the address of the table and moved the C stack. -/
def serve (b : ArgumentBlock) (s : CStack) (dest : UInt16) (m : Memory) : Memory :=
  let stored := m.writeWord dest b.tableAddress
  if b.start < s.pointer stored then s.setPointer stored b.start else stored

section Serve

variable {s : CStack} {dest : UInt16} (hcell : s.pointerCell.toNat < 0xFF)
  (hdest : ∀ a ∈ [dest, dest + 1], a.toNat ∉ b.addresses ∧ a.toNat ∉ s.addresses)
include hcell

/-- Nothing changes but the two bytes asked for and the C stack pointer. -/
theorem read_serve {a : UInt16} (hne : a ≠ dest) (hne' : a ≠ dest + 1)
    (ha : a.toNat ∉ s.addresses) : (b.serve s dest m).read a = m.read a := by
  have hstored := m.read_writeWord_of_ne b.tableAddress hne.symm hne'.symm
  unfold serve
  dsimp only
  split
  · rw [CStack.read_setPointer hcell _ _ ha, hstored]
  · exact hstored

include hdest

theorem readWord_serve : (b.serve s dest m).readWord dest = b.tableAddress := by
  have hstored := m.readWord_writeWord dest b.tableAddress
  unfold serve
  dsimp only
  split
  · rw [Memory.readWord, CStack.read_setPointer hcell _ _ (hdest dest (by simp)).2,
      CStack.read_setPointer hcell _ _ (hdest (dest + 1) (by simp)).2]
    exact hstored
  · exact hstored

theorem pointer_serve :
    (s.pointer (b.serve s dest m)).toNat = min (s.pointer m).toNat b.start.toNat := by
  have hstored : s.pointer (m.writeWord dest b.tableAddress) = s.pointer m := by
    refine CStack.pointer_congr hcell fun a ha => m.read_writeWord_of_ne _ ?_ ?_
    · rintro rfl
      exact (hdest dest (by simp)).2 ha
    · rintro rfl
      exact (hdest (dest + 1) (by simp)).2 ha
  unfold serve
  dsimp only
  rw [hstored]
  by_cases hlt : b.start < s.pointer m
  · rw [if_pos hlt, CStack.pointer_setPointer,
      Nat.min_eq_right (UInt16.lt_iff_toNat_lt.mp hlt).le]
  · rw [if_neg hlt, hstored, Nat.min_eq_left (UInt16.le_iff_toNat_le.mp (UInt16.not_lt.mp hlt))]

/-- A block above the zero page is served. -/
theorem InMemory.served (h : b.InMemory m args) (hstart : 0x100 ≤ b.start.toNat) :
    b.Served args s dest m (b.serve s dest m) := by
  have hstack : ∀ a : UInt16, a.toNat ∈ b.addresses → a.toNat ∉ s.addresses :=
    fun a ha => CStack.not_mem_addresses hcell (hstart.trans ha.1)
  have hblock : ∀ a : UInt16, a.toNat ∈ b.addresses → (b.serve s dest m).read a = m.read a := by
    intro a ha
    refine read_serve hcell ?_ ?_ (hstack a ha)
    · intro heq
      exact (hdest a (by simp [heq])).1 ha
    · intro heq
      exact (hdest a (by simp [heq])).1 ha
  have hpointer := pointer_serve (m := m) hcell hdest
  refine ⟨readWord_serve hcell hdest, ?_, hpointer, ?_⟩
  · exact (h.of_stored (h.stored_eq hblock)).leadsTo_iff
  · intro words hroom
    -- the pushes stay below the pointer, which is not above the block
    have hpushed := h.stored_eq (n := words.foldl s.push (b.serve s dest m)) fun a ha => by
      have hle : (s.pointer (b.serve s dest m)).toNat ≤ a.toNat := by
        rw [hpointer]
        exact (Nat.min_le_right _ _).trans ha.1
      rw [CStack.read_foldl_push hcell hroom hle (hstack a ha), hblock a ha]
    exact ⟨hpushed, (h.of_stored hpushed).readBack_eq⟩

end Serve

end ArgumentBlock

theorem Routine.answer_hostArgs {c : Call} {b : ArgumentBlock} {s : CStack}
    (harguments : c.arguments = b) (hstack : c.stack = s) :
    ∃ c', Routine.hostArgs.answer c = (.ok .goBack, c') ∧
      c'.registers = c.registers.setAX b.count ∧
      c'.memory = b.serve s c.registers.ax c.memory := by
  subst harguments hstack
  exact ⟨_, rfl, rfl, rfl⟩

/-! ### Programs -/

namespace Machine

variable {m : Machine}

/-- A step whose call returns leaves what the call has left. -/
theorem Settled.step_goBack (hm : m.Settled) {routine : Routine} {c : Call}
    (hcalled : m.called? = some routine)
    (hanswer : routine.answer m.atTrap.call = (.ok .goBack, c)) :
    m.step.cpu.state = .running ∧ m.step.memory = c.memory ∧
      m.step.cpu.registers.ax = c.registers.ax := by
  rw [answer_call_atTrap] at hanswer
  rw [hm.step_of_called? hcalled, hanswer]
  exact ⟨rfl, rfl, rfl⟩

variable {image : Image} {args : List (List UInt8)} {settings : Settings} {program : Program}

/-- **The program sees its arguments.** As long as the block is as it was loaded, the hook serves
the arguments to every call for them that wants the address of their table stored away from the
block and from the C stack pointer. The program finds this after the step that answers its call. -/
theorem arguments_served (hload : Program.load image args settings = .ok program)
    (script : List UInt8) (plan : FailurePlan) {m : Machine} {n : Nat}
    (hm : step^[n] (start program script plan) = m)
    (hblock : program.arguments.stored m.memory = program.arguments.stored program.memory)
    {c : Call} (hmemory : c.memory = m.memory) (harguments : c.arguments = m.arguments)
    (hstack : c.stack = m.stack) {dest : UInt16} (hax : c.registers.ax = dest)
    (hdest : ∀ a ∈ [dest, dest + 1],
      a.toNat ∉ program.arguments.addresses ∧ a.toNat ∉ program.stack.addresses) :
    ∃ c' w, Routine.hostArgs.answer c = (.ok .goBack, c') ∧
      c'.registers = c.registers.setAX w ∧ signedWord w = args.length ∧
      program.arguments.Served args program.stack dest m.memory c'.memory ∧
      (m.called? = some .hostArgs → m.cpu.registers = c.registers →
        m.step.cpu.state = .running ∧ m.step.memory = c'.memory ∧
          m.step.cpu.registers.ax = w) := by
  have hsettled := settled_start hload script plan
  have hkeeps := hsettled.keeps_iterate n
  have hnow := hsettled.iterate n
  rw [hm] at hkeeps hnow
  have harguments' : m.arguments = program.arguments := hkeeps.arguments_eq
  have hstack' : m.stack = program.stack := hkeeps.stack_eq
  have hbounds := Program.bounds_of_load hload
  have hin := (Program.inMemory_load hload).of_stored hblock
  have hstart := hbounds.floor_le_start
  have hserved := hin.served (s := program.stack) hbounds.stack_cell_lt hdest (by omega)
  obtain ⟨c₁, hanswer, hregisters, hmemory₁⟩ :=
    Routine.answer_hostArgs (harguments.trans harguments') (hstack.trans hstack')
  rw [hmemory, hax] at hmemory₁
  rw [← hmemory₁] at hserved
  refine ⟨c₁, program.arguments.count, hanswer, hregisters, hin.signedWord_count, hserved, ?_⟩
  intro hcalled heq
  -- the call that the machine makes is one of these
  obtain ⟨c₂, hanswer', hregisters', hmemory₂⟩ :=
    Routine.answer_hostArgs (c := m.atTrap.call) harguments' hstack'
  obtain ⟨hstate, hstep, hresult⟩ := hnow.step_goBack hcalled hanswer'
  rw [← hax, ← heq] at hmemory₁
  refine ⟨hstate, hstep.trans (hmemory₂.trans hmemory₁.symm), ?_⟩
  rw [hresult, hregisters', Registers.ax_setAX]

/-- A program that moves its C stack pointer into the block and asks for its arguments at `$0300`:
`LDA #$FF`, `STA $00`, `LDA #0`, `LDX #3`, `JSR $FFF8`. -/
def asksForArguments : Image :=
  Image.raw [0xA9, 0xFF, 0x85, 0, 0xA9, 0, 0xA2, 3, 0x20, 0xF8, 0xFF] 0x200 0x200 .nmos

/-- The program has two arguments, and gets its C stack moved back. -/
theorem arguments_served_two :
    ∃ program m, Program.load asksForArguments [[97, 98], [99]] Settings.default = .ok program ∧
      m = step^[5] (start program [] FailurePlan.none) ∧
      program.arguments.start < program.stack.pointer m.memory ∧
      signedWord m.step.cpu.registers.ax = 2 ∧
      program.arguments.Served [[97, 98], [99]] program.stack 0x300 m.memory m.step.memory := by
  obtain ⟨program, hload, hcalled, hax, hpointer, hblock, hstart, hcell⟩ : ∃ program,
      Program.load asksForArguments [[97, 98], [99]] Settings.default = .ok program ∧
      (step^[5] (start program [] FailurePlan.none)).called? = some .hostArgs ∧
      (step^[5] (start program [] FailurePlan.none)).cpu.registers.ax = 0x300 ∧
      program.arguments.start <
        program.stack.pointer (step^[5] (start program [] FailurePlan.none)).memory ∧
      program.arguments.stored (step^[5] (start program [] FailurePlan.none)).memory =
        program.arguments.stored program.memory ∧
      0x302 ≤ program.arguments.start.toNat ∧ program.stack.pointerCell = 0 :=
    ⟨_, rfl, by decide +kernel⟩
  have hdest : ∀ a ∈ [(0x300 : UInt16), 0x300 + 1],
      a.toNat ∉ program.arguments.addresses ∧ a.toNat ∉ program.stack.addresses := by
    intro a ha
    have hbounds : 0x100 ≤ a.toNat ∧ a.toNat < 0x302 := by
      rcases List.mem_pair.mp ha with rfl | rfl
      · decide
      · decide
    refine ⟨fun hmem => ?_, CStack.not_mem_addresses (by rw [hcell]; decide) hbounds.1⟩
    exact absurd (hstart.trans hmem.1) (Nat.not_le.mpr hbounds.2)
  obtain ⟨c, w, -, -, hw, hserved, hstep⟩ := arguments_served hload [] FailurePlan.none rfl hblock
    (c := (step^[5] (start program [] FailurePlan.none)).call) rfl rfl rfl hax hdest
  obtain ⟨-, hmemory, hresult⟩ := hstep hcalled rfl
  refine ⟨program, _, hload, rfl, hpointer, ?_, ?_⟩
  · rw [hresult, hw]
    rfl
  · rw [hmemory]
    exact hserved

end Machine

end Bench65
