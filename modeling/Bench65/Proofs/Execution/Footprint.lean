import Bench65.Cpu
import Bench65.Proofs.Alu
import Bench65.Proofs.Execution

/-!
# What an instruction may change

`Mnemonic.cells`, `Mnemonic.destinations`, `Mnemonic.flags` and `Mnemonic.Jumps` are the manual's
tables: the cells an operation stores to, the registers and flags it changes, and whether it
continues elsewhere. `Cpu.step_changes` says that a step leaves everything else as it was.

Each group of operations has its own footprint (`Effect.Within`), from which those of all operations
are collected mnemonic by mnemonic (`Effect.perform_within`).
-/

namespace Bench65

/-- The registers of one byte, the status register apart. -/
inductive ByteRegister where
  | a | x | y | s
  deriving DecidableEq, Repr

/-- The contents of a register. -/
def Registers.byte (r : Registers) : ByteRegister → UInt8
  | .a => r.a
  | .x => r.x
  | .y => r.y
  | .s => r.s

/-! ### The tables -/

/-- The cell that an operand stands for, if it stands for one. -/
def Operand.cells : Operand → List UInt16
  | address a _ => [a]
  | none | accumulator | immediate _ => []

/-- The cells of page 1 at and below a stack pointer. -/
def stackCells (s : UInt8) : Nat → List UInt16
  | 0 => []
  | n + 1 => stackCell s :: stackCells (s - 1) n

namespace Mnemonic

/-- The cells that an operation stores to, in order: its operand, or cells of the stack. -/
def cells (operand : Operand) (s : UInt8) : Mnemonic → List UInt16
  | sta | stx | sty | stz | inc | dec | asl | lsr | rol | ror | trb | tsb => operand.cells
  | pha | php | phx | phy => stackCells s 1
  | jsr => stackCells s 2
  | brk => stackCells s 3
  | _ => []

/-- The register that an operation replaces its operand in. -/
def operandRegisters : AddressingMode → List ByteRegister
  | .accumulator => [.a]
  | _ => []

/-- The operations that may work on the accumulator in place of a cell. -/
def hasAccumulatorForm : Mnemonic → Bool
  | asl | lsr | rol | ror | inc | dec => true
  | _ => false

/-- The registers that an operation changes. -/
def destinations (mode : AddressingMode) : Mnemonic → List ByteRegister
  | adc | sbc | and | ora | eor | lda | txa | tya => [.a]
  | ldx | inx | dex | tax | tsx => [.x]
  | ldy | iny | dey | tay => [.y]
  | pla => [.a, .s]
  | plx => [.x, .s]
  | ply => [.y, .s]
  | txs | pha | php | phx | phy | plp | jsr | rts | rti | brk => [.s]
  | asl | lsr | rol | ror | inc | dec => operandRegisters mode
  | _ => []

/-- The flags that an operation changes. -/
def flags (variant : Variant) (mode : AddressingMode) : Mnemonic → List UInt8
  | adc | sbc => [Status.negative, Status.overflow, Status.zero, Status.carry]
  | cmp | cpx | cpy | asl | lsr | rol | ror => [Status.negative, Status.zero, Status.carry]
  | and | ora | eor | lda | ldx | ldy | pla | plx | ply | tax | tay | txa | tya | tsx
  | inc | dec | inx | iny | dex | dey => [Status.negative, Status.zero]
  | bit =>
    if mode = .immediate then [Status.zero]
    else [Status.negative, Status.overflow, Status.zero]
  | trb | tsb => [Status.zero]
  | clc | sec => [Status.carry]
  | cld | sed => [Status.decimal]
  | cli | sei => [Status.interrupt]
  | clv => [Status.overflow]
  | plp | rti => Status.masks
  | brk => if variant.isCmos then [Status.interrupt, Status.decimal] else [Status.interrupt]
  | _ => []

/-- The operation continues elsewhere than at the next instruction: a jump, or a branch whose
condition holds. -/
def Jumps (p : Status) : Mnemonic → Prop
  | jmp | jsr | rts | rti | brk | bra => True
  | bcc => p.get Status.carry = false
  | bcs => p.get Status.carry = true
  | bne => p.get Status.zero = false
  | beq => p.get Status.zero = true
  | bpl => p.get Status.negative = false
  | bmi => p.get Status.negative = true
  | bvc => p.get Status.overflow = false
  | bvs => p.get Status.overflow = true
  | _ => False

end Mnemonic

/-- The part of the machine that an instruction may change. -/
structure Footprint where
  /-- The cells stored to, in order. -/
  cells : List UInt16
  /-- The registers. -/
  registers : List ByteRegister
  /-- The flags. -/
  flags : List UInt8
  /-- Whether execution continues elsewhere. -/
  jumps : Prop

/-- The footprint of an instruction in given registers and memory. -/
def Instruction.footprint (variant : Variant) (i : Instruction) (r : Registers) (m : Memory) :
    Footprint where
  cells := i.mnemonic.cells (Operand.resolve variant i.mode r m) r.s
  registers := i.mnemonic.destinations i.mode
  flags := i.mnemonic.flags variant i.mode
  jumps := i.mnemonic.Jumps r.p

/-! ### Effects within a footprint -/

namespace Effect

/-- An effect stores to the cells of a footprint, and leaves the rest of some registers alone. -/
structure Within (e : Effect) (f : Footprint) (r : Registers) : Prop where
  /-- The cells stored to. -/
  cells : e.stores.map Store.address = f.cells
  /-- The other registers stay. -/
  registers : ∀ register, register ∉ f.registers → e.registers.byte register = r.byte register
  /-- The other flags stay. -/
  flags : r.p.AgreeExcept f.flags e.registers.p
  /-- Execution goes on, unless it jumps. -/
  pc : ¬ f.jumps → e.registers.pc = r.pc

section Groups

variable (variant : Variant) (r : Registers) (m : Memory) {operand : Operand}

theorem agreeExcept_setNZ (p : Status) (value : UInt8) :
    p.AgreeExcept [Status.negative, Status.zero] (p.setNZ value) :=
  (Status.AgreeExcept.refl _ _).setNZ (by decide) (by decide) value

theorem within_of_p {q : Status} {changed : List UInt8} (h : r.p.AgreeExcept changed q) :
    (of { r with p := q }).Within ⟨[], [], changed, False⟩ r :=
  ⟨rfl, fun register _ => by cases register <;> rfl, h, fun _ => rfl⟩

theorem within_of : (of r).Within ⟨[], [], [], False⟩ r :=
  within_of_p r (Status.AgreeExcept.refl _ _)

/-- A value that arrives in the accumulator, and some flags. -/
theorem within_of_a {q : Status} {changed : List UInt8} (value : UInt8)
    (h : r.p.AgreeExcept changed q) :
    (of { r with a := value, p := q }).Within ⟨[], [.a], changed, False⟩ r := by
  refine ⟨rfl, fun register hnot => ?_, h, fun _ => rfl⟩
  cases register with
  | a => exact absurd List.mem_cons_self hnot
  | x | y | s => rfl

theorem within_loadA (value : UInt8) :
    (loadA r value).Within ⟨[], [.a], [Status.negative, Status.zero], False⟩ r :=
  within_of_a r value (agreeExcept_setNZ r.p value)

theorem within_loadX (value : UInt8) :
    (loadX r value).Within ⟨[], [.x], [Status.negative, Status.zero], False⟩ r := by
  refine ⟨rfl, fun register hnot => ?_, agreeExcept_setNZ r.p value, fun _ => rfl⟩
  cases register with
  | x => exact absurd List.mem_cons_self hnot
  | a | y | s => rfl

theorem within_loadY (value : UInt8) :
    (loadY r value).Within ⟨[], [.y], [Status.negative, Status.zero], False⟩ r := by
  refine ⟨rfl, fun register hnot => ?_, agreeExcept_setNZ r.p value, fun _ => rfl⟩
  cases register with
  | y => exact absurd List.mem_cons_self hnot
  | a | x | s => rfl

theorem byte_setS (value : UInt8) :
    ∀ register, register ∉ [ByteRegister.s] →
      { r with s := value }.byte register = r.byte register := by
  intro register hnot
  cases register with
  | s => exact absurd List.mem_cons_self hnot
  | a | x | y => rfl

theorem within_of_s (value : UInt8) :
    (of { r with s := value }).Within ⟨[], [.s], [], False⟩ r :=
  ⟨rfl, byte_setS r value, Status.AgreeExcept.refl _ _, fun _ => rfl⟩

theorem within_combine (op : Alu.Operation) (value : UInt8) :
    (combine variant op r value).Within ⟨[], [.a], op.flags, False⟩ r :=
  within_of_a r _ (Alu.agreeExcept_execute variant r.p r.a value op)

theorem within_compare (register value : UInt8) :
    (compare r register value).Within ⟨[], [], Alu.Operation.cmp.flags, False⟩ r :=
  within_of_p r (Alu.agreeExcept_compare r.p register value)

theorem within_flag {mask : UInt8} (hmask : mask ∈ Status.masks) (on : Bool) :
    (flag r mask on).Within ⟨[], [], [mask], False⟩ r :=
  within_of_p r ((Status.AgreeExcept.refl _ _).set hmask List.mem_cons_self on)

/-- The immediate form of `BIT` tests nothing but the common bits. -/
theorem within_bitTest (value : UInt8) (mode : AddressingMode) :
    (of { r with p := Alu.bitTest r.p r.a value (mode = .immediate) }).Within
      ⟨[], [], if mode = .immediate then [Status.zero]
        else [Status.negative, Status.overflow, Status.zero], False⟩ r := by
  refine within_of_p r ?_
  unfold Alu.bitTest
  by_cases hmode : mode = .immediate
  · rw [if_pos (decide_eq_true hmode), if_pos hmode]
    exact (Status.AgreeExcept.refl _ _).set (by decide) (by decide) _
  · rw [if_neg (mt of_decide_eq_true hmode), if_neg hmode]
    exact (((Status.AgreeExcept.refl _ _).set (by decide) (by decide) _).set (by decide)
      (by decide) _).set (by decide) (by decide) _

/-! ### Operations that store -/

/-- An operand of another kind than the accumulator, which stores do not have. -/
theorem within_storeTo (value : UInt8) (h : operand ≠ .accumulator) :
    (storeTo r operand value).Within ⟨operand.cells, [], [], False⟩ r := by
  cases operand with
  | accumulator => exact absurd rfl h
  | address | none | immediate =>
    exact ⟨rfl, fun _ _ => rfl, Status.AgreeExcept.refl _ _, fun _ => rfl⟩

/-- An operand replaced, in the accumulator or in memory. -/
theorem within_replace {registers : List ByteRegister} {changed : List UInt8}
    {result : Alu.Result} (haccumulator : operand = .accumulator → .a ∈ registers)
    (h : r.p.AgreeExcept changed result.status) :
    (replace r operand result).Within ⟨operand.cells, registers, changed, False⟩ r := by
  -- the result goes to the accumulator or to the cell of the operand
  cases operand with
  | accumulator =>
    refine ⟨rfl, fun register hnot => ?_, h, fun _ => rfl⟩
    cases register with
    | a => exact absurd (haccumulator rfl) hnot
    | x | y | s => rfl
  | address | none | immediate =>
    exact ⟨rfl, fun register _ => by cases register <;> rfl, h, fun _ => rfl⟩

theorem within_push (value : UInt8) :
    ((of r).push value).Within ⟨stackCells r.s 1, [.s], [], False⟩ r :=
  ⟨rfl, byte_setS r (r.s - 1), Status.AgreeExcept.refl _ _, fun _ => rfl⟩

/-- What holds after a pull holds of the registers before it, but for the stack pointer. -/
theorem Within.pulled {e : Effect} {cells : List UInt16} {registers : List ByteRegister}
    {changed : List UInt8} {jumps : Prop}
    (h : e.Within ⟨cells, registers, changed, jumps⟩ (r.pull m).2) :
    e.Within ⟨cells, registers ++ [.s], changed, jumps⟩ r := by
  refine ⟨h.cells, fun register hnot => ?_, h.flags, h.pc⟩
  obtain ⟨hregisters, hs⟩ := not_or.mp (mt List.mem_append.mpr hnot)
  exact (h.registers register hregisters).trans (byte_setS r (r.s + 1) register hs)

/-! ### Operations that jump -/

theorem within_branch (mnemonic : Mnemonic) (operand : Operand) {taken : Prop}
    (h : mnemonic.branchTaken r.p = true → taken) :
    (branch mnemonic r operand).Within ⟨[], [], [], taken⟩ r := by
  unfold branch
  split
  case h_1 htaken =>
    exact ⟨rfl, fun register _ => by cases register <;> rfl, Status.AgreeExcept.refl _ _,
      fun hnot => absurd (h htaken) hnot⟩
  case h_2 => exact ⟨rfl, fun _ _ => rfl, Status.AgreeExcept.refl _ _, fun _ => rfl⟩

theorem within_jump (operand : Operand) : (jump r operand).Within ⟨[], [], [], True⟩ r := by
  cases operand with
  | address =>
    exact ⟨rfl, fun register _ => by cases register <;> rfl, Status.AgreeExcept.refl _ _,
      fun hnot => absurd trivial hnot⟩
  | none | accumulator | immediate =>
    exact ⟨rfl, fun _ _ => rfl, Status.AgreeExcept.refl _ _, fun _ => rfl⟩

theorem within_call (target : UInt16) (crossed : Bool) :
    (call r (.address target crossed)).Within ⟨stackCells r.s 2, [.s], [], True⟩ r :=
  ⟨rfl, byte_setS r (r.s - 1 - 1), Status.AgreeExcept.refl _ _, fun hnot => absurd trivial hnot⟩

theorem within_returnFromSubroutine :
    (of (r.returnFromSubroutine m)).Within ⟨[], [.s], [], True⟩ r :=
  ⟨rfl, byte_setS r (r.s + 1 + 1), Status.AgreeExcept.refl _ _, fun hnot => absurd trivial hnot⟩

theorem within_returnFromInterrupt :
    (of (r.returnFromInterrupt m)).Within ⟨[], [.s], Status.masks, True⟩ r :=
  ⟨rfl, byte_setS r (r.s + 1 + 1 + 1), Status.agreeExcept_masks _ _,
    fun hnot => absurd trivial hnot⟩

theorem within_softwareInterrupt (start : UInt16) :
    (softwareInterrupt variant r m start).Within
      ⟨stackCells r.s 3, [.s],
        if variant.isCmos then [Status.interrupt, Status.decimal] else [Status.interrupt], True⟩
      r := by
  refine ⟨rfl, byte_setS r (r.s - 1 - 1 - 1), ?_, fun hnot => absurd trivial hnot⟩
  -- three bytes are pushed, and the flags change after that
  have hmasked : r.p.AgreeExcept [Status.interrupt] (r.p.set Status.interrupt true) :=
    (Status.AgreeExcept.refl _ _).set (by decide) (by decide) true
  have hbinary : r.p.AgreeExcept [Status.interrupt, Status.decimal]
      ((r.p.set Status.interrupt true).set Status.decimal false) :=
    ((Status.AgreeExcept.refl _ _).set (by decide) (by decide) true).set (by decide) (by decide)
      false
  cases variant with
  | nmos => exact hmasked
  | cmos => exact hbinary

end Groups

/-! ### All operations -/

section Perform

variable {variant : Variant} {i : Instruction} {start : UInt16} {operand : Operand} {r : Registers}

theorem jumps_of_branchTaken {mnemonic : Mnemonic} {p : Status} (hbranch : mnemonic.isBranch = true)
    (h : mnemonic.branchTaken p = true) : mnemonic.Jumps p := by
  cases mnemonic with
  | bra => trivial
  | bcc | bne | bpl | bvc =>
    have hclear := Bool.not_eq_true' _ ▸ h
    exact hclear
  | bcs | beq | bmi | bvs => exact h
  | _ => cases hbranch

/-- The operand suits the instruction. -/
structure Suits (i : Instruction) (operand : Operand) : Prop where
  /-- The accumulator is the operand only of an operation on it. -/
  accumulator : operand = .accumulator →
    i.mode = .accumulator ∧ i.mnemonic.hasAccumulatorForm = true
  /-- A call has a target. -/
  called : i.mnemonic = .jsr → ∃ target crossed, operand = .address target crossed

theorem perform_within (m : Memory) (h : Suits i operand) :
    (perform variant i start operand r m).Within
      ⟨i.mnemonic.cells operand r.s, i.mnemonic.destinations i.mode,
        i.mnemonic.flags variant i.mode, i.mnemonic.Jumps r.p⟩ r := by
  obtain ⟨opcode, mnemonic, mode, cycles⟩ := i
  have hreplaced : operand = .accumulator → .a ∈ Mnemonic.operandRegisters mode := by
    intro heq
    obtain ⟨rfl, -⟩ : mode = .accumulator ∧ _ := h.accumulator heq
    exact List.mem_cons_self
  -- one case for each group of mnemonics with the same effect; what suits the mode rules out the
  -- accumulator where there is no such form
  cases mnemonic with
  | adc | sbc | and | ora | eor => exact within_combine variant r _ _
  | cmp | cpx | cpy => exact within_compare r _ _
  | asl | lsr | rol | ror => exact within_replace r hreplaced (Alu.agreeExcept_shifted r.p _ _)
  | inc | dec => exact within_replace r hreplaced (agreeExcept_setNZ r.p _)
  | trb | tsb =>
    exact within_replace r (fun heq => absurd (h.accumulator heq).2 Bool.false_ne_true)
      ((Status.AgreeExcept.refl _ _).set (by decide) List.mem_cons_self _)
  | bit => exact within_bitTest r _ mode
  | lda | txa | tya => exact within_loadA r _
  | ldx | inx | dex | tax | tsx => exact within_loadX r _
  | ldy | iny | dey | tay => exact within_loadY r _
  | sta | stx | sty | stz =>
    exact within_storeTo r _ fun heq => absurd (h.accumulator heq).2 Bool.false_ne_true
  | txs => exact within_of_s r _
  | pha | php | phx | phy => exact within_push r _
  | pla => exact (within_loadA (r.pull m).2 _).pulled r m
  | plx => exact (within_loadX (r.pull m).2 _).pulled r m
  | ply => exact (within_loadY (r.pull m).2 _).pulled r m
  | plp => exact (within_of_p (r.pull m).2 (Status.agreeExcept_masks _ _)).pulled r m
  | clc | cld | cli | clv | sec | sed | sei => exact within_flag r (by decide) _
  | bcc | bcs | beq | bne | bmi | bpl | bvc | bvs | bra =>
    exact within_branch r _ operand (jumps_of_branchTaken rfl)
  | jmp => exact within_jump r operand
  | jsr =>
    obtain ⟨target, crossed, rfl⟩ := h.called rfl
    exact within_call r target crossed
  | rts => exact within_returnFromSubroutine r m
  | rti => exact within_returnFromInterrupt r m
  | brk => exact within_softwareInterrupt variant r m start
  | nop => exact within_of r

end Perform

end Effect

/-! ### Steps -/

namespace Instruction

variable {variant : Variant} {i : Instruction}

/-- What the opcode table says of operands. -/
theorem forms_of_mem (variant : Variant) :
    ∀ i ∈ all variant, (i.mode = .accumulator → i.mnemonic.hasAccumulatorForm = true) ∧
      (i.mnemonic = .jsr → i.mode = .absolute) := by
  cases variant with
  | nmos => decide +kernel
  | cmos => decide +kernel

theorem mode_of_resolve {mode : AddressingMode} {r : Registers} {m : Memory}
    (h : Operand.resolve variant mode r m = .accumulator) : mode = .accumulator := by
  cases mode with
  | accumulator => rfl
  | _ => cases h

theorem suits_of_mem (hi : i ∈ all variant) (r : Registers) (m : Memory) :
    Effect.Suits i (Operand.resolve variant i.mode r m) := by
  obtain ⟨haccumulator, hcall⟩ := forms_of_mem variant i hi
  constructor
  · intro hoperand
    have hmode := mode_of_resolve hoperand
    exact ⟨hmode, haccumulator hmode⟩
  · intro hjsr
    rw [hcall hjsr]
    exact ⟨_, _, rfl⟩

/-- The effect of an instruction, seen from the registers that are past it. -/
theorem effect_within (hi : i ∈ all variant) (r : Registers) (m : Memory) :
    (i.effect variant r m).Within (i.footprint variant r m)
      { r with pc := r.pc + UInt16.ofNat i.length } := by
  have h : (i.operation variant r m).Within (i.footprint variant r m)
      { r with pc := r.pc + UInt16.ofNat i.length } :=
    Effect.perform_within m (suits_of_mem hi r m)
  rw [effect_eq]
  exact ⟨h.cells, h.registers, h.flags, h.pc⟩

end Instruction

theorem Memory.read_apply_of_notMem {a : UInt16} : ∀ {m : Memory} {stores : List Store},
    a ∉ stores.map Store.address → (m.apply stores).read a = m.read a
  | _, [], _ => rfl
  | m, s :: stores, h => by
    rw [List.map_cons, List.mem_cons, not_or] at h
    show ((m.write s.address s.value).apply stores).read a = _
    rw [read_apply_of_notMem h.2, Memory.read_write_of_ne _ _ (Ne.symm h.1)]

/-- The machine after an instruction differs from the machine before only within a footprint. -/
structure Footprint.Confines (f : Footprint) (before after : Registers) (m m' : Memory)
    (length : Nat) : Prop where
  /-- Memory is the one before with bytes stored to the cells. -/
  stores : ∃ stores, m' = m.apply stores ∧ stores.map Store.address = f.cells
  /-- All other cells are unchanged. -/
  memory : ∀ a, a ∉ f.cells → m'.read a = m.read a
  /-- All other registers are unchanged. -/
  registers : ∀ register, register ∉ f.registers → after.byte register = before.byte register
  /-- All other flags are unchanged. -/
  flags : before.p.AgreeExcept f.flags after.p
  /-- Execution continues after the instruction, unless it jumps. -/
  pc : ¬ f.jumps → after.pc = before.pc + UInt16.ofNat length

namespace Cpu

variable {cpu : Cpu} {isTrap : UInt16 → Bool} {m : Memory} {i : Instruction}

theorem step_executed (hactive : cpu.isActive = true) (hbudget : cpu.steps < cpu.budget)
    (htrap : isTrap cpu.registers.pc = false)
    (hdecode : Instruction.decode cpu.variant (m.read cpu.registers.pc) = some i) :
    (cpu.step isTrap m).1.registers = (i.effect cpu.variant cpu.registers m).registers ∧
      (cpu.step isTrap m).2 = m.apply (i.effect cpu.variant cpu.registers m).stores := by
  have hevent : cpu.event isTrap m = .executed i (i.effect cpu.variant cpu.registers m) := by
    simp [event, hactive, Nat.not_le.mpr hbudget, htrap, hdecode]
  unfold step
  rw [hevent]
  exact ⟨rfl, rfl⟩

/-- A step that executes an instruction changes nothing outside the instruction's footprint. -/
theorem step_changes (hactive : cpu.isActive = true) (hbudget : cpu.steps < cpu.budget)
    (htrap : isTrap cpu.registers.pc = false)
    (hdecode : Instruction.decode cpu.variant (m.read cpu.registers.pc) = some i) :
    (i.footprint cpu.variant cpu.registers m).Confines cpu.registers
      (cpu.step isTrap m).1.registers m (cpu.step isTrap m).2 i.length := by
  obtain ⟨hregisters, hmemory⟩ := step_executed hactive hbudget htrap hdecode
  have h := Instruction.effect_within (Instruction.decode_eq_some_iff.mp hdecode).1 cpu.registers m
  rw [hregisters, hmemory]
  refine ⟨⟨_, rfl, h.cells⟩, fun a hnot => ?_, fun register hnot => ?_, h.flags, h.pc⟩
  · exact Memory.read_apply_of_notMem (h.cells ▸ hnot)
  · rw [h.registers register hnot]
    cases register with
    | _ => rfl

/-- A call with the stack pointer at the bottom of the stack page pushes around the page's end. -/
theorem step_changes_wrappedCall :
    let cpu := Cpu.start .nmos (Registers.initial 0x0200 0x00) 1 false
    let m := Memory.filled 0x20
    let i : Instruction := ⟨0x20, .jsr, .absolute, 6⟩
    cpu.isActive = true ∧ cpu.steps < cpu.budget ∧ (fun _ => false) cpu.registers.pc = false ∧
      Instruction.decode cpu.variant (m.read cpu.registers.pc) = some i ∧
      (i.footprint cpu.variant cpu.registers m).cells = [0x0100, 0x01FF] ∧
      (i.footprint cpu.variant cpu.registers m).Confines cpu.registers
        (cpu.step (fun _ => false) m).1.registers m (cpu.step (fun _ => false) m).2 i.length := by
  intro cpu m i
  have hdecode : Instruction.decode cpu.variant (m.read cpu.registers.pc) = some i := by
    decide +kernel
  exact ⟨rfl, by decide, rfl, hdecode, by decide, step_changes rfl (by decide) rfl hdecode⟩

end Cpu

end Bench65
