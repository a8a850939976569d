import Bench65.Proofs.Execution.Footprint
import Bench65.Proofs.Machine.Run

/-!
# The status register of a running machine

Only the copies of the status register on the stack have bit 4, and bit 5 is always one. The
register itself keeps to this at every step of a run, whatever a program has in memory and pulls
into it (`status_canonical`): the operations that restore it from the stack put the two bits right,
and all others leave them alone (`Mnemonic.not_mem_flags`).
-/

namespace Bench65

theorem Registers.canonical_initial (pc : UInt16) (s : UInt8) :
    (Registers.initial pc s).p.Canonical := by
  show (Status.ofBits Status.interrupt).Canonical
  exact ⟨by decide, by decide⟩

/-! ### Instructions -/

/-- Only what comes from the stack replaces the bits that are no flags. -/
theorem Mnemonic.not_mem_flags {mnemonic : Mnemonic} (hplp : mnemonic ≠ .plp)
    (hrti : mnemonic ≠ .rti) (variant : Variant) (mode : AddressingMode) :
    Status.unused ∉ mnemonic.flags variant mode ∧
      Status.breakBit ∉ mnemonic.flags variant mode := by
  cases mnemonic with
  | plp => exact absurd rfl hplp
  | rti => exact absurd rfl hrti
  | brk =>
    simp only [flags]
    split <;> decide
  | bit =>
    simp only [flags]
    split <;> decide
  | _ =>
    simp only [flags]
    decide

namespace Effect

theorem stores_push (e : Effect) (b : UInt8) :
    (e.push b).stores = e.stores ++ [⟨stackCell e.registers.s, b⟩] := rfl

/-- The byte pushed last is on top of the stack. -/
theorem read_push (e : Effect) (b : UInt8) (m : Memory) :
    (m.apply (e.push b).stores).read (stackCell ((e.push b).registers.s + 1)) = b := by
  have htop : (e.push b).registers.s + 1 = e.registers.s := UInt8.sub_add_cancel _ _
  rw [stores_push, htop, Memory.apply, List.foldl_append]
  exact Memory.read_write_self _ _ _

end Effect

namespace Instruction

variable {variant : Variant} {i : Instruction} {r : Registers}

/-- An instruction leaves a canonical status register canonical, and one that restores it from the
stack makes it so. -/
theorem canonical_effect (hi : i ∈ all variant) (m : Memory)
    (h : i.mnemonic = .plp ∨ i.mnemonic = .rti ∨ r.p.Canonical) :
    (i.effect variant r m).registers.p.Canonical := by
  have hoperation : (i.effect variant r m).registers = (i.operation variant r m).registers := by
    rw [effect_eq]
  by_cases hplp : i.mnemonic = .plp
  · rw [hoperation, operation, Effect.perform, hplp]
    exact Status.canonical_ofStack _
  by_cases hrti : i.mnemonic = .rti
  · rw [hoperation, operation, Effect.perform, hrti]
    exact Status.canonical_ofStack _
  -- every other instruction leaves both bits alone
  have hp : r.p.Canonical := (h.resolve_left hplp).resolve_left hrti
  obtain ⟨hunused, hbreak⟩ := Mnemonic.not_mem_flags hplp hrti variant i.mode
  exact hp.of_agreeExcept (effect_within hi r m).flags hunused hbreak

/-- `PHP` and `BRK` leave a copy of the status register on top of the stack. -/
theorem read_status_pushed (m : Memory) (h : i.mnemonic = .php ∨ i.mnemonic = .brk) :
    (m.apply (i.effect variant r m).stores).read
      (stackCell ((i.effect variant r m).registers.s + 1)) = r.p.toStack := by
  rw [effect_eq, operation, Effect.perform]
  rcases h with h | h
  · rw [h]
    exact Effect.read_push _ _ _
  · rw [h]
    exact Effect.read_push _ _ _

end Instruction

/-! ### Runs -/

namespace Machine

variable {m m' : Machine}

/-- A routine leaves the status register alone. -/
theorem p_of_perform {routine : Routine} {answer : Except Call.Failure Action} {c : Call}
    (hperform : routine.perform (m.trapCall routine) = (answer, c)) :
    c.registers.p = m.cpu.registers.p := by
  have hanswer := routine.perform_answered (m.trapCall routine)
  rw [hperform] at hanswer
  cases hanswer with
  | returned w hregisters huses =>
    rw [hregisters]
    rfl
  | exited hroutine => rfl
  | refused reason hregisters hconsole hcounters =>
    rw [hregisters]
    rfl
  | aborted hroutine hregisters hconsole hcounters =>
    rw [hregisters]
    rfl

/-- A step keeps the status register canonical. -/
theorem Transition.canonical (h : Transition m m') (hp : m.cpu.registers.p.Canonical) :
    m'.cpu.registers.p.Canonical := by
  cases h with
  | timeout hbudget => exact hp
  | illegal hbudget hlookup hdecode => exact hp
  | executed i hbudget hlookup hdecode =>
    exact Instruction.canonical_effect (Instruction.decode_eq_some_iff.mp hdecode).1 m.memory
      (.inr (.inr hp))
  | returned routine c hbudget hlookup hperform => exact (p_of_perform hperform).symm ▸ hp
  | exited routine c status hbudget hlookup hperform => exact (p_of_perform hperform).symm ▸ hp
  | refused routine c violation hbudget hlookup hperform =>
    exact (p_of_perform hperform).symm ▸ hp
  | aborted routine c hbudget hlookup hperform => exact (p_of_perform hperform).symm ▸ hp

theorem Settled.canonical_iterate (hm : m.Settled) (hp : m.cpu.registers.p.Canonical) (n : Nat) :
    (step^[n] m).cpu.registers.p.Canonical := by
  induction n with
  | zero => exact hp
  | succ n ih =>
    rw [Function.iterate_succ_apply']
    cases hrun : (step^[n] m).isFinished with
    | true =>
      rw [(hm.iterate n).step_eq hrun]
      exact ih
    | false => exact ((hm.iterate n).transition hrun).canonical ih

theorem effect_of_event {i : Instruction} {e : Effect} (h : m.event = .executed i e) :
    e = i.effect m.cpu.variant m.cpu.registers m.memory := by
  unfold event Cpu.event at h
  dsimp only at h
  split_ifs at h
  split at h
  · cases h
  · cases h
    rfl

/-- **The status register stores its two fixed bits as they are read.** In every machine that a
loaded program comes to, bit 5 is set and bit 4 is clear: every instruction keeps this, and what
restores the register from the stack brings it about, from any byte. The copies that `PHP` and `BRK`
leave on top of the stack have both bits set. -/
theorem status_canonical :
    (∀ (image : Image) (args : List (List UInt8)) (settings : Settings) (program : Program),
      Program.load image args settings = .ok program →
        ∀ (script : List UInt8) (plan : FailurePlan) (n : Nat),
          (step^[n] (start program script plan)).cpu.registers.p.Canonical) ∧
    (∀ variant, ∀ i ∈ Instruction.all variant, ∀ (r : Registers) (memory : Memory),
      i.mnemonic = .plp ∨ i.mnemonic = .rti ∨ r.p.Canonical →
        (i.effect variant r memory).registers.p.Canonical) ∧
    ∀ (m : Machine) (i : Instruction) (e : Effect), m.event = .executed i e →
      i.mnemonic = .php ∨ i.mnemonic = .brk →
        let pushed := m.step.memory.read (stackCell (m.step.cpu.registers.s + 1))
        pushed = m.cpu.registers.p.toStack ∧
          pushed &&& (Status.breakBit ||| Status.unused) =
            Status.breakBit ||| Status.unused := by
  refine ⟨fun image args settings program hload script plan n => ?_,
    fun variant i hi r memory => Instruction.canonical_effect hi memory, fun m i e hevent hi => ?_⟩
  · refine (settled_start hload script plan).canonical_iterate ?_ n
    rw [cpu_start hload script plan]
    exact Registers.canonical_initial image.header.entry settings.stackTop
  · have hpushed : m.step.memory.read (stackCell (m.step.cpu.registers.s + 1)) =
        m.cpu.registers.p.toStack := by
      rw [step, hevent, effect_of_event hevent]
      exact Instruction.read_status_pushed m.memory hi
    exact ⟨hpushed, hpushed ▸ Status.toStack_and _⟩

/-- A program that restores the status register from a byte of ones, `LDA #$FF`, `PHA`, `PLP`, and
then pushes it with `PHP`: the register has bit 4 clear and the copy has it set. An instruction that
restores the register does not depend on what it was. -/
theorem status_canonical_allOnes :
    (∃ program, Program.load (Image.raw [0xA9, 0xFF, 0x48, 0x28, 0x08] 0x200 0x200 .nmos) []
        Settings.default = .ok program ∧
      let m := step^[3] (start program [] FailurePlan.none)
      m.cpu.registers.p.raw = 0xEF ∧ m.cpu.registers.p.Canonical ∧
        m.step.memory.read (stackCell (m.step.cpu.registers.s + 1)) &&&
          (Status.breakBit ||| Status.unused) = Status.breakBit ||| Status.unused) ∧
    ((⟨0x28, .plp, .implied, 4⟩ : Instruction).effect .nmos
      { Registers.initial 0x200 0xFF with p := Status.clear }
      (Memory.filled 0)).registers.p.Canonical := by
  obtain ⟨hrun, hinstruction, hcopy⟩ := status_canonical
  refine ⟨?_, hinstruction .nmos _ (by decide +kernel) _ _ (.inl rfl)⟩
  -- after the third step the loaded value is in the register and `PHP` comes next
  obtain ⟨program, hload, hraw, hactive, hbudget, hlookup, hdecode⟩ : ∃ program,
      Program.load (Image.raw [0xA9, 0xFF, 0x48, 0x28, 0x08] 0x200 0x200 .nmos) []
        Settings.default = .ok program ∧
      let m := step^[3] (start program [] FailurePlan.none)
      m.cpu.registers.p.raw = 0xEF ∧ m.cpu.isActive = true ∧ m.cpu.steps < m.cpu.budget ∧
        m.registry.lookup m.cpu.registers.pc = none ∧
        Instruction.decode m.cpu.variant (m.memory.read m.cpu.registers.pc) =
          some ⟨0x08, .php, .implied, 3⟩ :=
    ⟨_, rfl, by decide +kernel, by decide +kernel, by decide +kernel, by decide +kernel,
      by decide +kernel⟩
  have hevent := event_of_decode hactive hbudget hlookup hdecode
  exact ⟨program, hload, hraw, hrun _ _ _ program hload [] FailurePlan.none 3,
    (hcopy _ _ _ hevent (.inl rfl)).2⟩

end Machine

end Bench65
