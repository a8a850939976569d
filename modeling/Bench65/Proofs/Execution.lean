import Bench65.Cpu.Execution
import Bench65.Proofs.Instruction
import Bench65.Proofs.Status

/-!
# What an instruction costs, and on which processor it does the same

Only a branch or an index that leaves the page costs more than the base count, so that every
instruction takes from two to seven cycles (`cycles_bounds`).

The 65C02 performs an instruction as the 6502 does (`effect_onCmos`), except for the cases that
`Instruction.Diverges` lists: decimal arithmetic, `BRK` in decimal mode, and a jump through a
pointer whose bytes lie on two pages.
-/

namespace Bench65

/-! ### Cycles beyond the base count -/

namespace Effect

@[simp]
theorem extraCycles_of (r : Registers) : (of r).extraCycles = 0 := rfl

@[simp]
theorem extraCycles_assign (e : Effect) (operand : Operand) (b : UInt8) :
    (e.assign operand b).extraCycles = e.extraCycles := by
  cases operand with
  | _ => rfl

@[simp]
theorem extraCycles_replace (r : Registers) (operand : Operand) (result : Alu.Result) :
    (replace r operand result).extraCycles = 0 := by
  simp [replace]

@[simp]
theorem extraCycles_storeTo (r : Registers) (operand : Operand) (value : UInt8) :
    (storeTo r operand value).extraCycles = 0 := by
  simp [storeTo]

@[simp]
theorem extraCycles_jump (r : Registers) (operand : Operand) :
    (jump r operand).extraCycles = 0 := by
  cases operand with
  | _ => rfl

@[simp]
theorem extraCycles_call (r : Registers) (operand : Operand) :
    (call r operand).extraCycles = 0 := by
  cases operand with
  | _ => rfl

theorem extraCycles_branch_le (mnemonic : Mnemonic) (r : Registers) (operand : Operand) :
    (branch mnemonic r operand).extraCycles ≤ if mnemonic = .bra then 1 else 2 := by
  unfold branch
  split
  · dsimp only
    split <;> split <;> omega
  · simp

variable {variant : Variant} {i : Instruction} {start : UInt16} {operand : Operand} {r : Registers}
  {m : Memory}

theorem perform_of_isBranch (h : i.mnemonic.isBranch = true) :
    perform variant i start operand r m = branch i.mnemonic r operand := by
  unfold perform
  cases hm : i.mnemonic with
  | bcc | bcs | bne | beq | bpl | bmi | bvc | bvs | bra => rfl
  | _ =>
    rw [hm] at h
    cases h

theorem extraCycles_perform (h : i.mnemonic.isBranch = false) :
    (perform variant i start operand r m).extraCycles = 0 := by
  -- only branches take a cycle more by themselves
  unfold perform
  cases hm : i.mnemonic with
  | bcc | bcs | bne | beq | bpl | bmi | bvc | bvs | bra =>
    rw [hm] at h
    cases h
  | asl | lsr | rol | ror | inc | dec | trb | tsb => exact extraCycles_replace ..
  | sta | stx | sty | stz => exact extraCycles_storeTo ..
  | jmp => exact extraCycles_jump ..
  | jsr => exact extraCycles_call ..
  | _ => rfl

end Effect

namespace Instruction

variable {variant : Variant} {opcode : UInt8} {i : Instruction}

/-- The most cycles that an instruction can take beyond its base count. -/
def mostExtraCycles (i : Instruction) : Nat :=
  if i.mnemonic.isBranch then if i.mnemonic = .bra then 1 else 2
  else if i.mnemonic.paysPagePenalty then 1
  else 0

theorem paysPagePenalty_of_isBranch {mnemonic : Mnemonic} (h : mnemonic.isBranch = true) :
    mnemonic.paysPagePenalty = false := by
  cases mnemonic with
  | bcc | bcs | bne | beq | bpl | bmi | bvc | bvs | bra => rfl
  | _ => cases h

/-- What the operation does, apart from the cycle for an index that leaves the page. -/
def operation (variant : Variant) (i : Instruction) (r : Registers) (m : Memory) : Effect :=
  Effect.perform variant i r.pc (Operand.resolve variant i.mode r m)
    { r with pc := r.pc + UInt16.ofNat i.length } m

theorem effect_eq (variant : Variant) (i : Instruction) (r : Registers) (m : Memory) :
    i.effect variant r m =
      { i.operation variant r m with
        extraCycles := (i.operation variant r m).extraCycles +
          if i.mnemonic.paysPagePenalty && (Operand.resolve variant i.mode r m).crossed then 1
          else 0 } := by
  show (if i.mnemonic.paysPagePenalty && (Operand.resolve variant i.mode r m).crossed then
    { i.operation variant r m with extraCycles := (i.operation variant r m).extraCycles + 1 }
    else i.operation variant r m) = _
  by_cases h : (i.mnemonic.paysPagePenalty && (Operand.resolve variant i.mode r m).crossed) = true
  · rw [if_pos h, if_pos h]
  · rw [if_neg h, if_neg h, Nat.add_zero]

theorem extraCycles_effect_le (variant : Variant) (i : Instruction) (r : Registers) (m : Memory) :
    (i.effect variant r m).extraCycles ≤ i.mostExtraCycles := by
  rw [effect_eq]
  unfold mostExtraCycles operation
  dsimp only
  cases hbranch : i.mnemonic.isBranch with
  | true =>
    rw [paysPagePenalty_of_isBranch hbranch, Effect.perform_of_isBranch hbranch]
    exact Effect.extraCycles_branch_le ..
  | false =>
    rw [Effect.extraCycles_perform hbranch, Nat.zero_add]
    cases i.mnemonic.paysPagePenalty with
    | true => split <;> simp
    | false => simp

theorem cycles_bounds_of_mem (variant : Variant) :
    ∀ i ∈ all variant, 2 ≤ i.cycles ∧ i.cycles + i.mostExtraCycles ≤ 7 := by
  cases variant with
  | nmos => decide +kernel
  | cmos => decide +kernel

/-- Every instruction takes from two to seven cycles. -/
theorem cycles_bounds (h : decode variant opcode = some i) (r : Registers) (m : Memory) :
    2 ≤ i.cycles + (i.effect variant r m).extraCycles ∧
      i.cycles + (i.effect variant r m).extraCycles ≤ 7 := by
  have hbase := cycles_bounds_of_mem variant i (decode_eq_some_iff.mp h).1
  have hextra := extraCycles_effect_le variant i r m
  omega

end Instruction

/-! ### Both processors -/

namespace Status

/-- What is claimed of all status registers can be tried on the 256 there are. -/
instance {P : Status → Prop} [DecidablePred P] : Decidable (∀ p, P p) :=
  decidable_of_iff (∀ b : BitVec 8, P ⟨⟨b⟩⟩) ⟨fun h p => h p.raw.toBitVec, fun h b => h ⟨⟨b⟩⟩⟩

theorem set_decimal_false : ∀ p : Status, p.get decimal = false → p.set decimal false = p := by
  decide +kernel

end Status

/-- Outside decimal mode the variant plays no part in arithmetic. -/
theorem Alu.execute_cmos {p : Status} (op : Operation) (h : p.get Status.decimal = false)
    (a b : UInt8) : execute .cmos op p a b = execute .nmos op p a b := by
  unfold execute Operation.family Family.execute
  cases op with
  | adc | sbc => simp only [arithmetic, h, Bool.false_eq_true, if_false]
  | _ => rfl

theorem Operand.wordWithinPage_eq {a : UInt16} (m : Memory) (h : lowByte a ≠ 0xFF) :
    wordWithinPage m a = m.readWord a := by
  have hlow : (lowByte a).toNat ≠ 255 := fun heq => h (UInt8.toNat_inj.mp heq)
  have hnext : word (lowByte a + 1) (highByte a) = a + 1 := by
    apply UInt16.toNat_inj.mp
    have ha := a.toNat_lt
    rw [toNat_lowByte] at hlow
    simp only [toNat_word, UInt8.toNat_add, UInt16.toNat_add, toNat_lowByte, toNat_highByte,
      UInt8.reduceToNat, UInt16.reduceToNat]
    omega
  rw [wordWithinPage, Memory.readWord, hnext]

namespace Instruction

variable {i : Instruction}

/-- The jump through a pointer, `JMP ($nnnn)`. -/
def jumpsThroughPointer (i : Instruction) : Bool :=
  i.mnemonic = .jmp ∧ i.mode = .indirect

/-- The processors perform an instruction differently. -/
def Diverges (i : Instruction) (r : Registers) (m : Memory) : Prop :=
  (i.mnemonic = .adc ∨ i.mnemonic = .sbc ∨ i.mnemonic = .brk) ∧ r.p.get Status.decimal = true ∨
    i.jumpsThroughPointer = true ∧ lowByte (m.readWord (r.pc + 1)) = 0xFF

instance (i : Instruction) (r : Registers) (m : Memory) : Decidable (i.Diverges r m) :=
  inferInstanceAs (Decidable (_ ∨ _))

theorem eq_jmp_of_indirect : ∀ i ∈ nmosInstructions, i.mode = .indirect → i.mnemonic = .jmp := by
  decide +kernel

theorem jumpsThroughPointer_iff (hi : i ∈ nmosInstructions) :
    i.jumpsThroughPointer = true ↔ i.mode = .indirect := by
  unfold jumpsThroughPointer
  rw [decide_eq_true_iff]
  exact ⟨And.right, fun hmode => ⟨eq_jmp_of_indirect i hi hmode, hmode⟩⟩

theorem resolve_cmos {mode : AddressingMode} {r : Registers} {m : Memory}
    (h : mode = .indirect → lowByte (m.readWord (r.pc + 1)) ≠ 0xFF) :
    Operand.resolve .cmos mode r m = Operand.resolve .nmos mode r m := by
  cases mode with
  | indirect =>
    show Operand.fixed (m.readWord (m.readWord (r.pc + 1))) =
      Operand.fixed (Operand.wordWithinPage m (m.readWord (r.pc + 1)))
    rw [Operand.wordWithinPage_eq m (h rfl)]
  | _ => rfl

theorem perform_onCmos {start : UInt16} {operand : Operand} {r : Registers} {m : Memory}
    (h : i.mnemonic = .adc ∨ i.mnemonic = .sbc ∨ i.mnemonic = .brk →
      r.p.get Status.decimal = false) :
    Effect.perform .cmos i.onCmos start operand r m = Effect.perform .nmos i start operand r m := by
  unfold Effect.perform
  rw [mnemonic_onCmos, mode_onCmos]
  cases hm : i.mnemonic with
  | adc | sbc =>
    have hp := h (by simp [hm])
    simp only [Effect.combine, Alu.execute_cmos _ hp]
  | brk =>
    have hp := h (by simp [hm])
    have hq : (r.p.set Status.interrupt true).get Status.decimal = false := by
      rw [Status.get_set_of_ne (by decide) (by decide) (by decide), hp]
    simp only [Effect.softwareInterrupt, Variant.isCmos, if_true, Status.set_decimal_false _ hq]
    rfl
  | _ => rfl

/-- Where the processors do not diverge they do the same. -/
theorem effect_onCmos {r : Registers} {m : Memory} (hi : i ∈ nmosInstructions)
    (h : ¬ i.Diverges r m) : i.onCmos.effect .cmos r m = i.effect .nmos r m := by
  obtain ⟨hdecimal, hpointer⟩ := not_or.mp h
  -- the processors differ in decimal arithmetic and in jumps through a pointer at the end of a page
  have hresolve : Operand.resolve .cmos i.mode r m = Operand.resolve .nmos i.mode r m :=
    resolve_cmos fun hmode heq => hpointer ⟨(jumpsThroughPointer_iff hi).mpr hmode, heq⟩
  have hclear : i.mnemonic = .adc ∨ i.mnemonic = .sbc ∨ i.mnemonic = .brk →
      r.p.get Status.decimal = false :=
    fun hm => Bool.eq_false_iff.mpr fun hset => hdecimal ⟨hm, hset⟩
  have hoperation : i.onCmos.operation .cmos r m = i.operation .nmos r m := by
    unfold operation
    rw [length_onCmos, mode_onCmos, hresolve]
    exact perform_onCmos hclear
  rw [effect_eq, effect_eq, hoperation, mnemonic_onCmos, mode_onCmos, hresolve]

/-- Only the jump through a pointer takes another cycle on the 65C02. -/
theorem cycles_onCmos_of_mem (hi : i ∈ nmosInstructions) :
    i.onCmos.cycles = i.cycles + if i.jumpsThroughPointer then 1 else 0 := by
  rw [cycles_onCmos]
  by_cases hmode : i.mode = .indirect
  · rw [if_pos hmode, if_pos ((jumpsThroughPointer_iff hi).mpr hmode)]
  · rw [if_neg hmode, if_neg fun hjump => hmode ((jumpsThroughPointer_iff hi).mp hjump)]

end Instruction

end Bench65
