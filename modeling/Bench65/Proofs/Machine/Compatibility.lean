import Bench65.Proofs.Call.Request
import Bench65.Proofs.Execution
import Bench65.Proofs.Machine.Run
import Mathlib.Data.Nat.Count

/-!
# Programs for the 6502 on the 65C02

* `cmos_follows_nmos`: the 65C02 runs a program in lockstep with the 6502, step by step in the same
  state, until the 6502 comes to an instruction that only one of them has or that they perform
  differently (`Machine.Diverges`). Only the clock of the 65C02 gets ahead, by one cycle for every
  jump through a pointer.

The machine on the 65C02 is compared with the same machine, moved to the other processor
(`Machine.onCmos`). One step keeps them together (`Settled.step_onCmos`), and so do many.
-/

namespace Bench65

/-! ### Where the processors part -/

namespace Cpu.Event

/-- A step fetches an opcode that the processor does not have, or executes an instruction that the
processors perform differently. -/
def Diverges (r : Registers) (m : Memory) : Event → Prop
  | .illegal _ _ => True
  | .executed i _ => i.Diverges r m
  | _ => False

instance (r : Registers) (m : Memory) : ∀ e : Event, Decidable (e.Diverges r m)
  | .illegal _ _ => isTrue trivial
  | .executed i _ => inferInstanceAs (Decidable (i.Diverges r m))
  | .idle | .timeout | .trap _ => isFalse id

/-- A step executes a jump through a pointer. -/
def jumpsThroughPointer : Event → Bool
  | .executed i _ => i.jumpsThroughPointer
  | _ => false

end Cpu.Event

namespace Machine

variable {m : Machine} {extra : Nat}

/-- The processors perform the next step differently. -/
def Diverges (m : Machine) : Prop :=
  m.event.Diverges m.cpu.registers m.memory

instance (m : Machine) : Decidable m.Diverges :=
  inferInstanceAs (Decidable (m.event.Diverges _ _))

/-- The machine with a 65C02 whose clock is some cycles ahead. -/
def onCmos (m : Machine) (extra : Nat) : Machine :=
  { m with
    cpu := { m.cpu with variant := .cmos, cycles := m.cpu.cycles + extra }
    counters := m.counters.withCycles (m.counters.cycles + extra) }

/-! ### One step -/

theorem afterEvent_executed (m : Machine) (i : Instruction) (e : Effect) :
    m.afterEvent (.executed i e) =
      { m with
        cpu := m.cpu.after (.executed i e)
        memory := m.memory.apply e.stores }.syncCounters := rfl

/-- An instruction that takes some more cycles on the 65C02 puts its clock further ahead. -/
theorem afterEvent_executed_onCmos {i j : Instruction} {more : Nat} (e : Effect)
    (hcycles : j.cycles = i.cycles + more) :
    (m.onCmos extra).afterEvent (.executed j e) =
      (m.afterEvent (.executed i e)).onCmos (extra + more) := by
  have hsum : m.cpu.cycles + extra + j.cycles + e.extraCycles =
      m.cpu.cycles + i.cycles + e.extraCycles + (extra + more) := by omega
  rw [afterEvent_executed, afterEvent_executed]
  unfold syncCounters Cpu.after onCmos Counters.withCycles
  dsimp only
  rw [hsum]

theorem afterEvent_trap_onCmos {routine : Routine}
    (hlookup : m.registry.lookup m.cpu.registers.pc = some routine) :
    (m.onCmos extra).afterEvent (.trap m.cpu.registers.pc) =
      (m.afterEvent (.trap m.cpu.registers.pc)).onCmos extra := by
  have hlookup' : (m.onCmos extra).registry.lookup (m.onCmos extra).cpu.registers.pc =
      some routine := hlookup
  have hcall : (m.onCmos extra).trapCall routine =
      (m.trapCall routine).withCycles (m.counters.cycles + extra) := rfl
  have htrap := afterEvent_trap hlookup'
  rw [hcall, Routine.perform_withCycles] at htrap
  rw [afterEvent_trap hlookup]
  refine htrap.trans ?_
  rcases routine.perform (m.trapCall routine) with ⟨(violation | -) | (- | status), c⟩
  · rfl
  · rfl
  · rfl
  · rfl

/-- One step keeps the machines together. -/
theorem step_onCmos (hactive : m.cpu.isActive = true) (hvariant : m.cpu.variant = .nmos)
    (h : ¬ m.Diverges) :
    (m.onCmos extra).step =
      m.step.onCmos (extra + if m.event.jumpsThroughPointer then 1 else 0) := by
  have hactive' : (m.onCmos extra).cpu.isActive = true := hactive
  unfold Diverges at h
  unfold step
  rcases Nat.lt_or_ge m.cpu.steps m.cpu.budget with hbudget | hbudget
  · cases hlookup : m.registry.lookup m.cpu.registers.pc with
    | some routine =>
      have hevent' : (m.onCmos extra).event = .trap m.cpu.registers.pc :=
        event_of_lookup hactive' hbudget hlookup
      rw [event_of_lookup hactive hbudget hlookup, hevent']
      exact afterEvent_trap_onCmos hlookup
    | none =>
      cases hdecode : Instruction.decode .nmos (m.memory.read m.cpu.registers.pc) with
      | none =>
        -- an opcode that the 6502 does not have
        rw [← hvariant] at hdecode
        rw [event_of_decode_eq_none hactive hbudget hlookup hdecode] at h
        exact absurd trivial h
      | some i =>
        have hi := (Instruction.decode_eq_some_iff.mp hdecode).1
        have hevent' : (m.onCmos extra).event =
            .executed i.onCmos (i.onCmos.effect .cmos m.cpu.registers m.memory) :=
          event_of_decode hactive' hbudget hlookup (Instruction.decode_cmos_of_nmos hdecode)
        rw [← hvariant] at hdecode
        have hevent := event_of_decode hactive hbudget hlookup hdecode
        rw [hvariant] at hevent
        rw [hevent] at h
        rw [hevent, hevent', Instruction.effect_onCmos hi h]
        exact afterEvent_executed_onCmos _ (Instruction.cycles_onCmos_of_mem hi)
  · have hevent' : (m.onCmos extra).event = .timeout := event_of_budget_le hactive' hbudget
    rw [event_of_budget_le hactive hbudget, hevent']
    rfl

/-! ### Many steps -/

/-- The number of jumps through a pointer among the next steps. -/
def pointerJumps (m : Machine) (n : Nat) : Nat :=
  Nat.count (fun k => (step^[k] m).event.jumpsThroughPointer = true) n

/-- Machines that are together stay together until the first of them diverges. -/
theorem Settled.iterate_onCmos (h : m.Settled) (hvariant : m.cpu.variant = .nmos) {n : Nat}
    (hsame : ∀ k < n, ¬ (step^[k] m).Diverges) :
    step^[n] (m.onCmos extra) = (step^[n] m).onCmos (extra + m.pointerJumps n) := by
  induction n with
  | zero => rfl
  | succ n ih =>
    have hcount : m.pointerJumps (n + 1) =
        m.pointerJumps n + if (step^[n] m).event.jumpsThroughPointer then 1 else 0 :=
      Nat.count_succ _ n
    rw [Function.iterate_succ_apply', Function.iterate_succ_apply',
      ih fun k hk => hsame k (Nat.lt_succ_of_lt hk), hcount, ← Nat.add_assoc]
    -- a run that is over counts no more jumps, so both machines stay as they are
    cases hrun : (step^[n] m).isFinished with
    | true =>
      have hrun' : ((step^[n] m).onCmos (extra + m.pointerJumps n)).isFinished = true := hrun
      rw [step_of_isFinished hrun, step_of_isFinished hrun', event_of_isFinished hrun]
      rfl
    | false =>
      exact step_onCmos ((h.iterate n).isActive hrun)
        ((h.keeps_iterate n).variant_eq.trans hvariant) (hsame n (Nat.lt_succ_self n))

/-- What two machines have in common that run the same program on different processors, the clock
of the second some cycles ahead. -/
structure Together (m m' : Machine) (ahead : Nat) : Prop where
  registers_eq : m'.cpu.registers = m.cpu.registers
  memory_eq : m'.memory = m.memory
  console_eq : m'.console = m.console
  state_eq : m'.cpu.state = m.cpu.state
  steps_eq : m'.cpu.steps = m.cpu.steps
  cycles_eq : m'.cpu.cycles = m.cpu.cycles + ahead
  counters_eq : m'.counters = m.counters.withCycles (m.counters.cycles + ahead)

theorem together_onCmos (m : Machine) (ahead : Nat) : m.Together (m.onCmos ahead) ahead :=
  ⟨rfl, rfl, rfl, rfl, rfl, rfl, rfl⟩

end Machine

/-! ### Programs -/

section Programs

variable {image : Image} {args : List (List UInt8)} {settings : Settings} {program : Program}

/-- The processor plays no part in loading. -/
theorem Program.load_variant (h : Program.load image args settings = .ok program)
    (variant : Variant) :
    Program.load image args { settings with variant := some variant } =
      .ok { program with cpu := { program.cpu with variant } } := by
  obtain ⟨_, _, -, -, -, hcpu, -⟩ := load_eq_ok h
  have hload : load image args { settings with variant := some variant } = _ :=
    load_of_agree h rfl rfl rfl rfl
  rw [hload, hcpu]
  rfl

/-- **The 65C02 runs programs for the 6502.** A program loaded for the 6502 can be loaded for the
65C02, and as long as the 6502 has not come to an instruction that only one of the processors has
or that they perform differently, both are in the same state after every number of steps. The
65C02 has then spent one cycle more for every jump through a pointer. -/
theorem cmos_follows_nmos (hload : Program.load image args settings = .ok program)
    (hvariant : program.cpu.variant = .nmos) :
    ∃ program', Program.load image args { settings with variant := some .cmos } = .ok program' ∧
      ∀ (script : List UInt8) (plan : FailurePlan) (n : Nat),
        (∀ k < n, ¬ (Machine.step^[k] (Machine.start program script plan)).Diverges) →
          (Machine.step^[n] (Machine.start program script plan)).Together
            (Machine.step^[n] (Machine.start program' script plan))
            ((Machine.start program script plan).pointerJumps n) := by
  refine ⟨_, Program.load_variant hload .cmos, fun script plan n hsame => ?_⟩
  have hm := Machine.settled_start hload script plan
  have hstart : Machine.start { program with cpu := { program.cpu with variant := .cmos } } script
      plan = (Machine.start program script plan).onCmos 0 := rfl
  rw [hstart, hm.iterate_onCmos hvariant hsame, Nat.zero_add]
  exact Machine.together_onCmos _ _

end Programs

/-- A program that jumps through a pointer and exits with status 7: `JMP ($0203)`, the pointer,
`LDA #7`, `JMP $FFF9`. -/
def pointerJump : Image :=
  Image.raw [0x6C, 3, 2, 5, 2, 0xA9, 7, 0x4C, 0xF9, 0xFF] 0x200 0x200 .nmos

/-- The 65C02 ends it a cycle later. -/
theorem cmos_follows_nmos_pointerJump :
    ∃ program program',
      Program.load pointerJump [] Settings.default = .ok program ∧
      Program.load pointerJump [] { Settings.default with variant := some .cmos } = .ok program' ∧
      (Machine.step^[4] (Machine.start program [] FailurePlan.none)).cpu.state = .halted 7 ∧
      (Machine.step^[4] (Machine.start program [] FailurePlan.none)).Together
        (Machine.step^[4] (Machine.start program' [] FailurePlan.none)) 1 := by
  obtain ⟨program, hload, hvariant, hstate, hsame, hjumps⟩ : ∃ program,
      Program.load pointerJump [] Settings.default = .ok program ∧
      program.cpu.variant = .nmos ∧
      (Machine.step^[4] (Machine.start program [] FailurePlan.none)).cpu.state = .halted 7 ∧
      (∀ k < 4, ¬ (Machine.step^[k] (Machine.start program [] FailurePlan.none)).Diverges) ∧
      (Machine.start program [] FailurePlan.none).pointerJumps 4 = 1 :=
    ⟨_, rfl, rfl, by decide +kernel, by decide +kernel, by decide +kernel⟩
  obtain ⟨program', hload', hfollows⟩ := cmos_follows_nmos hload hvariant
  have htogether := hfollows [] FailurePlan.none 4 hsame
  rw [hjumps] at htogether
  exact ⟨program, program', hload, hload', hstate, htogether⟩

end Bench65
