import Bench65.Proofs.Counters
import Bench65.Proofs.Execution
import Bench65.Proofs.Machine.Run

/-!
# The books of a run

* `books_balanced`: after every number of steps the counters of a machine say what happened: the
  steps and cycles of its processor, the traps taken and the calls of each routine, the bytes in
  its transcript and the write calls that failed. A trap writes at most once, and every step that
  is no trap takes from two to seven cycles.

How a step shows in the books is one of the cases of `Charged`, each of which keeps them balanced.
-/

namespace Bench65

/-- A step takes a trap. -/
def Cpu.Event.isTrap : Event → Bool
  | .trap _ => true
  | _ => false

namespace Machine

variable {m m' : Machine} {plan : FailurePlan} {traps : Nat} {calls : Routine → Nat}

/-- The routine that the next step calls, if it takes a trap. -/
def called? (m : Machine) : Option Routine :=
  match m.event with
  | .trap a => m.registry.lookup a
  | _ => none

/-! ### One step -/

/-- How a step shows in the books. -/
inductive Charged (m : Machine) : Machine → Prop
  /-- A run that is over stays as it is. -/
  | idle (hevent : m.event.isTrap = false) (hcalled : m.called? = none) : Charged m m
  /-- Ending the run with a fault does not show. -/
  | nothing (fault : Fault) (hevent : m.event.isTrap = false) (hcalled : m.called? = none) :
      Charged m (m.stopped fault)
  /-- An instruction shows with its cycles. -/
  | instruction (i : Instruction) (hevent : m.event.isTrap = false) (hcalled : m.called? = none)
      (hcycles : 2 ≤ i.cycles + (i.effect m.cpu.variant m.cpu.registers m.memory).extraCycles ∧
        i.cycles + (i.effect m.cpu.variant m.cpu.registers m.memory).extraCycles ≤ 7) :
      Charged m (m.afterInstruction i)
  /-- A call shows with what it read and wrote. -/
  | call (routine : Routine) (c : Call) (registers : Registers) (state : RunState)
      (hevent : m.event.isTrap = true) (hcalled : m.called? = some routine)
      (huses : (m.trapCall routine).Uses c) :
      Charged m (m.afterAnswer { c with registers } state)

theorem called?_of_lookup {routine : Routine} (hactive : m.cpu.isActive = true)
    (hbudget : m.cpu.steps < m.cpu.budget)
    (hlookup : m.registry.lookup m.cpu.registers.pc = some routine) :
    m.event.isTrap = true ∧ m.called? = some routine := by
  unfold called?
  rw [event_of_lookup hactive hbudget hlookup]
  exact ⟨rfl, hlookup⟩

theorem called?_of_event (h : m.event.isTrap = false) : m.called? = none := by
  unfold called?
  cases hevent : m.event with
  | trap a =>
    rw [hevent] at h
    cases h
  | _ => rfl

/-- A routine is called at a trap that the budget still allows. -/
theorem Settled.of_called? {routine : Routine} (hm : m.Settled)
    (hcalled : m.called? = some routine) :
    m.event = .trap m.cpu.registers.pc ∧
      m.registry.lookup m.cpu.registers.pc = some routine := by
  -- at any other event no routine is called
  have htrap : m.event.isTrap = true := by
    rw [← Bool.not_eq_false]
    intro hevent
    rw [called?_of_event hevent] at hcalled
    cases hcalled
  cases hrun : m.isFinished with
  | true =>
    rw [event_of_isFinished hrun] at htrap
    cases htrap
  | false =>
    have hactive := hm.isActive hrun
    rcases Nat.lt_or_ge m.cpu.steps m.cpu.budget with hbudget | hbudget
    · cases hlookup : m.registry.lookup m.cpu.registers.pc with
      | some r =>
        have hr := (called?_of_lookup hactive hbudget hlookup).2
        rw [hcalled] at hr
        exact ⟨event_of_lookup hactive hbudget hlookup, hr.symm⟩
      | none =>
        cases hdecode : Instruction.decode m.cpu.variant (m.memory.read m.cpu.registers.pc) with
        | none =>
          rw [event_of_decode_eq_none hactive hbudget hlookup hdecode] at htrap
          cases htrap
        | some i =>
          rw [event_of_decode hactive hbudget hlookup hdecode] at htrap
          cases htrap
    · rw [event_of_budget_le hactive hbudget] at htrap
      cases htrap

/-- A step that calls a routine is the answer to the call. -/
theorem Settled.step_of_called? {routine : Routine} (hm : m.Settled)
    (hcalled : m.called? = some routine) :
    m.step =
      match routine.perform (m.trapCall routine) with
      | (.ok .goBack, c) => m.afterAnswer
          { c with registers := c.registers.returnFromSubroutine c.memory } .running
      | (.ok (.exit status), c) => m.afterAnswer c (.halted status)
      | (.error (.violation violation), c) => m.afterAnswer c
          (.faulted (.contractViolation m.cpu.registers.pc violation))
      | (.error .abort, c) => m.afterAnswer c .aborted := by
  obtain ⟨hevent, hlookup⟩ := hm.of_called? hcalled
  rw [step, hevent]
  exact afterEvent_trap hlookup

theorem Transition.charged (h : Transition m m') (hactive : m.cpu.isActive = true) :
    m.Charged m' := by
  cases h with
  | timeout hbudget =>
    have hevent : m.event.isTrap = false := by
      rw [event_of_budget_le hactive hbudget]
      rfl
    exact .nothing _ hevent (called?_of_event hevent)
  | illegal hbudget hlookup hdecode =>
    have hevent : m.event.isTrap = false := by
      rw [event_of_decode_eq_none hactive hbudget hlookup hdecode]
      rfl
    exact .nothing _ hevent (called?_of_event hevent)
  | executed i hbudget hlookup hdecode =>
    have hevent : m.event.isTrap = false := by
      rw [event_of_decode hactive hbudget hlookup hdecode]
      rfl
    exact .instruction i hevent (called?_of_event hevent)
      (Instruction.cycles_bounds hdecode m.cpu.registers m.memory)
  -- a call is charged in the same way however it ends
  | returned routine c hbudget hlookup hperform =>
    obtain ⟨hevent, hcalled⟩ := called?_of_lookup hactive hbudget hlookup
    exact .call routine c _ _ hevent hcalled (uses_of_perform hperform)
  | exited routine c status hbudget hlookup hperform =>
    obtain ⟨hevent, hcalled⟩ := called?_of_lookup hactive hbudget hlookup
    exact .call routine c c.registers _ hevent hcalled (uses_of_perform hperform)
  | refused routine c violation hbudget hlookup hperform =>
    obtain ⟨hevent, hcalled⟩ := called?_of_lookup hactive hbudget hlookup
    exact .call routine c c.registers _ hevent hcalled (uses_of_perform hperform)
  | aborted routine c hbudget hlookup hperform =>
    obtain ⟨hevent, hcalled⟩ := called?_of_lookup hactive hbudget hlookup
    exact .call routine c c.registers _ hevent hcalled (uses_of_perform hperform)

theorem Settled.charged (h : m.Settled) : m.Charged m.step := by
  cases hrun : m.isFinished with
  | true =>
    have hevent : m.event.isTrap = false := by
      rw [event_of_isFinished hrun]
      rfl
    rw [h.step_eq hrun]
    exact .idle hevent (called?_of_event hevent)
  | false => exact (h.transition hrun).charged (h.isActive hrun)

/-! ### Balanced books -/

/-- The counters of a machine say what it did: it took `traps` traps, of which `calls` went to each
routine. -/
structure Balanced (m : Machine) (plan : FailurePlan) (traps : Nat) (calls : Routine → Nat) :
    Prop where
  steps_eq : m.counters.steps = m.cpu.steps
  cycles_eq : m.counters.cycles = m.cpu.cycles
  traps_eq : m.counters.traps = traps
  total_eq : m.counters.calls.total = traps
  count_eq : ∀ r, m.counters.calls.count r = calls r
  plan_eq : m.console.plan = plan
  tallied : m.console.Tallied m.counters m.cpu.steps
  traps_le : traps ≤ m.cpu.steps
  cycles_ge : 2 * (m.cpu.steps - traps) ≤ m.cpu.cycles
  cycles_le : m.cpu.cycles ≤ 7 * (m.cpu.steps - traps)

/-- However a step shows, the books stay balanced. -/
theorem Charged.balanced (hcharged : m.Charged m') (h : m.Balanced plan traps calls) :
    m'.Balanced plan (traps + if m.event.isTrap then 1 else 0)
      (fun r => calls r + if m.called? = some r then 1 else 0) := by
  cases hcharged with
  | idle hevent hcalled =>
    rw [hevent, hcalled]
    exact h
  | nothing fault hevent hcalled =>
    rw [hevent, hcalled]
    exact { h with
      steps_eq := rfl
      cycles_eq := rfl
      tallied := { h.tallied with } }
  | instruction i hevent hcalled hcycles =>
    rw [hevent, hcalled]
    have htraps := h.traps_le
    have hge := h.cycles_ge
    have hle := h.cycles_le
    refine { h with
      steps_eq := rfl
      cycles_eq := rfl
      tallied := { h.tallied.mono (Nat.le_succ m.cpu.steps) with }
      traps_le := htraps.trans (Nat.le_succ _)
      cycles_ge := ?_
      cycles_le := ?_ }
    · show 2 * (m.cpu.steps + 1 - traps) ≤ m.cpu.cycles + i.cycles + _
      omega
    · show m.cpu.cycles + i.cycles + _ ≤ 7 * (m.cpu.steps + 1 - traps)
      omega
  | call routine c registers state hevent hcalled huses =>
    rw [hevent, hcalled]
    obtain ⟨htraps, hcalls⟩ := huses.calls_eq
    -- the step of the trap is no step of an instruction, so the bounds of the cycles stay
    have hsteps : m.cpu.steps + 1 - (traps + 1) = m.cpu.steps - traps := by omega
    exact {
      steps_eq := rfl
      cycles_eq := rfl
      traps_eq := by
        show c.counters.traps = traps + 1
        rw [htraps, ← h.traps_eq]
        rfl
      total_eq := by
        show c.counters.calls.total = traps + 1
        rw [hcalls, ← h.total_eq]
        exact CallCounts.total_add _ _
      count_eq := fun r => by
        show c.counters.calls.count r = calls r + if some routine = some r then 1 else 0
        rw [hcalls, ← h.count_eq]
        simp only [Option.some_inj, @eq_comm _ routine r]
        exact m.counters.calls.count_add routine r
      plan_eq := huses.plan_eq.trans h.plan_eq
      tallied := { huses.tallied { h.tallied with } (Nat.lt_succ_self m.cpu.steps) with }
      traps_le := Nat.succ_le_succ h.traps_le
      cycles_ge := by
        show 2 * (m.cpu.steps + 1 - (traps + 1)) ≤ m.cpu.cycles
        rw [hsteps]
        exact h.cycles_ge
      cycles_le := by
        show m.cpu.cycles ≤ 7 * (m.cpu.steps + 1 - (traps + 1))
        rw [hsteps]
        exact h.cycles_le }

/-- Only a trap writes, and no more than once. -/
theorem Charged.writeCalls (hcharged : m.Charged m') :
    m.console.writeCalls ≤ m'.console.writeCalls ∧
      m'.console.writeCalls ≤ m.console.writeCalls + if m.event.isTrap then 1 else 0 := by
  cases hcharged with
  | idle hevent hcalled => exact ⟨Nat.le_refl _, Nat.le_add_right _ _⟩
  | nothing fault hevent hcalled => exact ⟨Nat.le_refl _, Nat.le_add_right _ _⟩
  | instruction i hevent hcalled hcycles => exact ⟨Nat.le_refl _, Nat.le_add_right _ _⟩
  | call routine c registers state hevent hcalled huses =>
    rw [hevent]
    exact huses.writeCalls_le

/-! ### Many steps -/

/-- The number of traps that the next steps take. -/
def trapCount (m : Machine) (n : Nat) : Nat :=
  Nat.count (fun k => (step^[k] m).event.isTrap = true) n

/-- How many of the next steps call a routine. -/
def callCount (m : Machine) (r : Routine) (n : Nat) : Nat :=
  Nat.count (fun k => (step^[k] m).called? = some r) n

theorem Settled.balanced_iterate (hm : m.Settled) (h : m.Balanced plan 0 fun _ => 0) (n : Nat) :
    (step^[n] m).Balanced plan (m.trapCount n) (m.callCount · n) := by
  induction n with
  | zero => exact h
  | succ n ih =>
    have hcalls : (m.callCount · (n + 1)) =
        fun r => m.callCount r n + if (step^[n] m).called? = some r then 1 else 0 :=
      funext fun r => Nat.count_succ _ n
    rw [Function.iterate_succ_apply', hcalls, trapCount, Nat.count_succ]
    exact (hm.iterate n).charged.balanced ih

/-! ### Programs -/

variable {image : Image} {args : List (List UInt8)} {settings : Settings} {program : Program}

theorem balanced_start (hload : Program.load image args settings = .ok program)
    (script : List UInt8) (plan : FailurePlan) :
    (start program script plan).Balanced plan 0 fun _ => 0 := by
  have hsteps := steps_start hload script plan
  have hcycles := cycles_start hload script plan
  exact {
    steps_eq := hsteps.symm
    cycles_eq := hcycles.symm
    traps_eq := rfl
    total_eq := rfl
    count_eq := fun _ => rfl
    plan_eq := rfl
    tallied := hsteps ▸ Console.tallied_start script plan
    traps_le := Nat.zero_le _
    cycles_ge := by rw [hsteps]; exact Nat.zero_le _
    cycles_le := by rw [hcycles]; exact Nat.zero_le _ }

/-- **The books are always balanced.** After every number of steps of a loaded program the
counters say what it did, and no step but a trap has written, which wrote once at most. -/
theorem books_balanced (hload : Program.load image args settings = .ok program)
    (script : List UInt8) (plan : FailurePlan) (n : Nat) :
    (step^[n] (start program script plan)).Balanced plan
        ((start program script plan).trapCount n) ((start program script plan).callCount · n) ∧
      (step^[n] (start program script plan)).console.writeCalls ≤
        (step^[n + 1] (start program script plan)).console.writeCalls ∧
      (step^[n + 1] (start program script plan)).console.writeCalls ≤
        (step^[n] (start program script plan)).console.writeCalls +
          if (step^[n] (start program script plan)).event.isTrap then 1 else 0 := by
  have hm := settled_start hload script plan
  refine ⟨hm.balanced_iterate (balanced_start hload script plan) n, ?_⟩
  rw [Function.iterate_succ_apply']
  exact (hm.iterate n).charged.writeCalls

/-- A program that reads a byte, writes it twice and exits: `JSR $0310`, `JSR $0300`, `JSR $0300`,
`JMP $FFF9`, with `putchar` at `$0300` and `getchar` at `$0310`. -/
def echoTwice : Image :=
  { Image.raw [0x20, 0x10, 3, 0x20, 0, 3, 0x20, 0, 3, 0x4C, 0xF9, 0xFF] 0x200 0x200 .nmos with
    symbols := ⟨[("_putchar", 0x300), ("_getchar", 0x310)]⟩ }

/-- The second write is refused. -/
theorem books_balanced_echoTwice :
    ∃ program m, Program.load echoTwice [] Settings.default = .ok program ∧
      m = step^[8] (start program [66] ⟨[1], none⟩) ∧
      m.console.transcript = ⟨#[⟨4, .stdout, [66]⟩], #[⟨2, 66⟩]⟩ ∧
      m.console.writeCalls = 2 ∧
      m.Balanced ⟨[1], none⟩ 4 ((start program [66] ⟨[1], none⟩).callCount · 8) := by
  obtain ⟨program, hload, htranscript, hcalls, htraps⟩ : ∃ program,
      Program.load echoTwice [] Settings.default = .ok program ∧
      (step^[8] (start program [66] ⟨[1], none⟩)).console.transcript =
        ⟨#[⟨4, .stdout, [66]⟩], #[⟨2, 66⟩]⟩ ∧
      (step^[8] (start program [66] ⟨[1], none⟩)).console.writeCalls = 2 ∧
      (start program [66] ⟨[1], none⟩).trapCount 8 = 4 :=
    ⟨_, rfl, by decide +kernel⟩
  have hbalanced := (books_balanced hload [66] ⟨[1], none⟩ 8).1
  rw [htraps] at hbalanced
  exact ⟨program, _, hload, rfl, htranscript, hcalls, hbalanced⟩

end Machine

end Bench65
