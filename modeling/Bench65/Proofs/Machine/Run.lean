import Bench65.Proofs.Machine.Step
import Bench65.Proofs.Program
import Mathlib.Data.Nat.Find
import Mathlib.Logic.Function.Iterate

/-!
# Runs

`Settled` is what holds of a machine between steps, from its start on: it is not trapped, it has
not taken more steps than its budget allows, its counters are up to date, and its transcript has no
event of a later step. Such a machine goes on in one of the seven ways of `Transition`, or its run
is over and it stays as it is.

From this follow the facts about whole runs: an unfinished machine has counted each of its steps
(`Settled.steps_iterate`), so that the run ends within one step more than the budget
(`Settled.exists_finishesAt`); the machine a run ends with was left by a transition of an unfinished
one (`Settled.exists_isLastStep`); and what was written and read up to some step stays what it was
(`Settled.upTo_iterate`).
-/

namespace Bench65.Machine

variable {m : Machine}

/-- What holds of a machine between steps. -/
structure Settled (m : Machine) : Prop where
  /-- No routine is waiting to be answered. -/
  trappedAt?_eq_none : m.cpu.trappedAt? = none
  /-- The budget is kept. -/
  steps_le : m.cpu.steps ≤ m.cpu.budget
  /-- The counters are up to date. -/
  syncCounters_eq : m.syncCounters = m
  /-- Nothing was written or read after the last step. -/
  upTo_steps : m.console.transcript.upTo m.cpu.steps = m.console.transcript

theorem Settled.counters_steps_eq (h : m.Settled) : m.counters.steps = m.cpu.steps :=
  (congrArg (fun m => m.counters.steps) h.syncCounters_eq).symm

/-! ### One step -/

theorem Settled.isActive (h : m.Settled) (hrun : m.isFinished = false) :
    m.cpu.isActive = true :=
  (Cpu.isActive_iff m.cpu).mpr ⟨hrun, h.trappedAt?_eq_none⟩

theorem Settled.transition (h : m.Settled) (hrun : m.isFinished = false) :
    Transition m m.step :=
  step_transition (h.isActive hrun)

theorem Settled.step_eq (h : m.Settled) (hfinished : m.isFinished = true) : m.step = m := by
  rw [step_of_isFinished hfinished, h.syncCounters_eq]

/-- A settled machine stays settled. -/
theorem Settled.next (h : m.Settled) : m.step.Settled := by
  cases hrun : m.isFinished with
  | true =>
    rw [h.step_eq hrun]
    exact h
  | false =>
    have ht := h.transition hrun
    refine ⟨ht.trappedAt?_eq_none, ?_, ht.syncCounters_eq, ?_⟩
    · rw [ht.keeps.budget_eq]
      -- a step that is not counted ends the run and leaves the rest as it was
      rcases ht.steps with ⟨hlt, hsteps⟩ | ⟨fault, heq⟩
      · rw [hsteps]
        exact hlt
      · rw [heq]
        exact h.steps_le
    · rcases ht.steps with ⟨-, hsteps⟩ | ⟨fault, heq⟩
      · rw [hsteps]
        exact ht.transcript.upTo_eq_self (Nat.le_succ _) h.upTo_steps
      · rw [heq]
        exact h.upTo_steps

theorem Settled.keeps_step (h : m.Settled) : m.Keeps m.step := by
  cases hrun : m.isFinished with
  | true =>
    rw [h.step_eq hrun]
    exact .refl m
  | false => exact (h.transition hrun).keeps

/-! ### Many steps -/

theorem Settled.iterate (h : m.Settled) (n : Nat) : (step^[n] m).Settled := by
  induction n with
  | zero => exact h
  | succ n ih =>
    rw [Function.iterate_succ_apply']
    exact ih.next

theorem Settled.keeps_iterate (h : m.Settled) (n : Nat) : m.Keeps (step^[n] m) := by
  induction n with
  | zero => exact .refl m
  | succ n ih =>
    rw [Function.iterate_succ_apply']
    exact ih.trans (h.iterate n).keeps_step

/-- A machine whose run is over stays as it is. -/
theorem Settled.iterate_eq (h : m.Settled) (hfinished : m.isFinished = true) (n : Nat) :
    step^[n] m = m :=
  Function.iterate_fixed (h.step_eq hfinished) n

theorem Settled.iterate_eq_of_le (h : m.Settled) {k n : Nat} (hle : k ≤ n)
    (hfinished : (step^[k] m).isFinished = true) :
    step^[n] m = step^[k] m := by
  obtain ⟨d, rfl⟩ := Nat.exists_eq_add_of_le' hle
  rw [Function.iterate_add_apply]
  exact (h.iterate k).iterate_eq hfinished d

/-- Before an unfinished machine there are only unfinished ones. -/
theorem Settled.isFinished_of_le (h : m.Settled) {k n : Nat} (hle : k ≤ n)
    (hrun : (step^[n] m).isFinished = false) :
    (step^[k] m).isFinished = false := by
  rw [Bool.eq_false_iff] at hrun ⊢
  intro hfinished
  rw [h.iterate_eq_of_le hle hfinished] at hrun
  exact hrun hfinished

/-- As long as the run is not over, every step is counted. -/
theorem Settled.steps_iterate (h : m.Settled) {n : Nat}
    (hrun : (step^[n] m).isFinished = false) :
    (step^[n] m).cpu.steps = m.cpu.steps + n := by
  induction n with
  | zero => rfl
  | succ n ih =>
    have hbefore := h.isFinished_of_le (Nat.le_succ n) hrun
    rw [Function.iterate_succ_apply'] at hrun ⊢
    rcases ((h.iterate n).transition hbefore).steps with ⟨-, hsteps⟩ | ⟨fault, heq⟩
    · rw [hsteps, ih hbefore, Nat.add_assoc]
    · -- a step that is not counted ends the run
      rw [heq] at hrun
      cases hrun

/-- The step after `k` others is the last of the `n` steps taken that did anything. -/
structure IsLastStep (m : Machine) (k n : Nat) : Prop where
  lt : k < n
  isFinished_eq_false : (step^[k] m).isFinished = false
  iterate_eq : step^[n] m = step^[k + 1] m

/-- A machine whose run is over was left by a last step, unless it was over from the start. -/
theorem Settled.exists_isLastStep (h : m.Settled) (hstart : m.isFinished = false) {n : Nat}
    (hfinished : (step^[n] m).isFinished = true) :
    ∃ k, m.IsLastStep k n ∧ Transition (step^[k] m) (step^[n] m) := by
  induction n with
  | zero =>
    rw [Function.iterate_zero_apply, hstart] at hfinished
    cases hfinished
  | succ n ih =>
    -- either the run ended with this step or it had ended before
    cases hbefore : (step^[n] m).isFinished with
    | false =>
      refine ⟨n, ⟨Nat.lt_succ_self n, hbefore, rfl⟩, ?_⟩
      rw [Function.iterate_succ_apply']
      exact (h.iterate n).transition hbefore
    | true =>
      obtain ⟨k, ⟨hk, hrun, heq⟩, ht⟩ := ih hbefore
      rw [h.iterate_eq_of_le (Nat.le_succ n) hbefore]
      refine ⟨k, ⟨Nat.lt_succ_of_lt hk, hrun, ?_⟩, ht⟩
      rw [h.iterate_eq_of_le (Nat.le_succ n) hbefore, heq]

/-! ### The end of a run -/

/-- The run is over after exactly `n` steps. -/
def FinishesAt (m : Machine) (n : Nat) : Prop :=
  (step^[n] m).isFinished = true ∧ ∀ k < n, (step^[k] m).isFinished = false

/-- The budget bounds the run: at the latest, the step after the last one it allows ends it. -/
theorem Settled.exists_finishesAt (h : m.Settled) :
    ∃ n ≤ m.cpu.budget - m.cpu.steps + 1, m.FinishesAt n := by
  have hend : (step^[m.cpu.budget - m.cpu.steps + 1] m).isFinished = true := by
    -- otherwise more steps would have been counted than the budget allows
    rw [← Bool.not_eq_false]
    intro hrun
    have hsteps := h.steps_iterate hrun
    have hle := (h.iterate (m.cpu.budget - m.cpu.steps + 1)).steps_le
    rw [(h.keeps_iterate _).budget_eq, hsteps] at hle
    have := h.steps_le
    omega
  have hex : ∃ n, (step^[n] m).isFinished = true := ⟨_, hend⟩
  exact ⟨Nat.find hex, Nat.find_min' hex hend, Nat.find_spec hex, fun k hk =>
    (Bool.not_eq_true _).mp (Nat.find_min hex hk)⟩

theorem FinishesAt.next {n : Nat} (h : m.FinishesAt (n + 1)) :
    m.isFinished = false ∧ m.step.FinishesAt n := by
  refine ⟨h.2 0 n.succ_pos, ?_, fun k hk => ?_⟩
  · rw [← Function.iterate_succ_apply]
    exact h.1
  · rw [← Function.iterate_succ_apply]
    exact h.2 (k + 1) (Nat.succ_lt_succ hk)

/-- Enough fuel does not show. -/
theorem runFor_eq {n fuel : Nat} (hn : m.FinishesAt n) (hle : n ≤ fuel) :
    runFor fuel m = step^[n] m := by
  induction n generalizing m fuel with
  | zero =>
    cases fuel with
    | zero => rfl
    | succ fuel => exact if_pos hn.1
  | succ n ih =>
    obtain ⟨fuel, rfl⟩ := Nat.exists_eq_add_of_le' (Nat.one_le_of_lt hle)
    obtain ⟨hrun, hrest⟩ := hn.next
    rw [runFor, if_neg (Bool.eq_false_iff.mp hrun), ih hrest (Nat.le_of_succ_le_succ hle),
      ← Function.iterate_succ_apply]

theorem Settled.run_eq (h : m.Settled) {n : Nat} (hn : m.FinishesAt n) :
    m.run = step^[n] m := by
  obtain ⟨k, hk, hfinished⟩ := h.exists_finishesAt
  have hle : n ≤ k := by
    rw [← Nat.not_lt]
    intro hlt
    have := hn.2 k hlt
    rw [hfinished.1] at this
    cases this
  exact runFor_eq hn (Nat.le_succ_of_le (Nat.le_trans hle hk))

/-- A run is where enough steps lead. -/
theorem Settled.run_eq_of_isFinished (h : m.Settled) {n : Nat}
    (hfinished : (step^[n] m).isFinished = true) : m.run = step^[n] m := by
  obtain ⟨k, -, hk⟩ := h.exists_finishesAt
  rw [h.run_eq hk]
  rcases Nat.le_total k n with hle | hle
  · exact (h.iterate_eq_of_le hle hk.1).symm
  · exact h.iterate_eq_of_le hle hfinished

/-- From every machine on the way, steps lead on to the end of the run. -/
theorem Settled.exists_run_eq (h : m.Settled) (n : Nat) : ∃ d, m.run = step^[d] (step^[n] m) := by
  obtain ⟨k, -, hk⟩ := h.exists_finishesAt
  refine ⟨k, ?_⟩
  rw [h.run_eq hk, ← Function.iterate_add_apply, h.iterate_eq_of_le (Nat.le_add_right k n) hk.1]

/-! ### What was written and read -/

theorem Settled.extends_step (h : m.Settled) :
    m.console.transcript.Extends (m.cpu.steps + 1) m.step.console.transcript := by
  cases hrun : m.isFinished with
  | true =>
    rw [h.step_eq hrun]
    exact .refl _ _
  | false => exact (h.transition hrun).transcript

theorem Settled.steps_le_step (h : m.Settled) : m.cpu.steps ≤ m.step.cpu.steps := by
  cases hrun : m.isFinished with
  | true => rw [h.step_eq hrun]
  | false =>
    rcases (h.transition hrun).steps with ⟨-, hsteps⟩ | ⟨fault, heq⟩
    · rw [hsteps]
      exact Nat.le_succ _
    · rw [heq]
      exact Nat.le_refl _

theorem Settled.steps_le_iterate (h : m.Settled) (n : Nat) :
    m.cpu.steps ≤ (step^[n] m).cpu.steps := by
  induction n with
  | zero => exact Nat.le_refl _
  | succ n ih =>
    rw [Function.iterate_succ_apply']
    exact Nat.le_trans ih (h.iterate n).steps_le_step

/-- Later steps do not change what was written and read up to some step. -/
theorem Settled.upTo_iterate (h : m.Settled) (n : Nat) :
    (step^[n] m).console.transcript.upTo m.cpu.steps = m.console.transcript := by
  induction n with
  | zero => exact h.upTo_steps
  | succ n ih =>
    -- what the next step adds carries a number that is greater than the limit
    rw [Function.iterate_succ_apply', ← ih]
    exact (h.iterate n).extends_step.upTo_of_lt (Nat.lt_succ_of_le (h.steps_le_iterate n))

/-- What the whole run has written and read up to a state is what it had written and read then. -/
theorem Settled.upTo_run (h : m.Settled) (n : Nat) :
    m.run.console.transcript.upTo (step^[n] m).cpu.steps = (step^[n] m).console.transcript := by
  obtain ⟨d, hd⟩ := h.exists_run_eq n
  rw [hd]
  exact (h.iterate n).upTo_iterate d

/-! ### The start -/

variable {image : Image} {args : List (List UInt8)} {settings : Settings} {program : Program}

/-- The processor of a machine about to run a loaded program. -/
theorem cpu_start (h : Program.load image args settings = .ok program) (script : List UInt8)
    (plan : FailurePlan) : (start program script plan).cpu = Program.initialCpu image settings := by
  obtain ⟨_, _, -, -, -, hcpu, -⟩ := Program.load_eq_ok h
  exact hcpu

theorem steps_start (h : Program.load image args settings = .ok program) (script : List UInt8)
    (plan : FailurePlan) : (start program script plan).cpu.steps = 0 := by
  rw [cpu_start h script plan]
  rfl

theorem cycles_start (h : Program.load image args settings = .ok program) (script : List UInt8)
    (plan : FailurePlan) : (start program script plan).cpu.cycles = 0 := by
  rw [cpu_start h script plan]
  rfl

theorem settled_start (h : Program.load image args settings = .ok program) (script : List UInt8)
    (plan : FailurePlan) : (start program script plan).Settled := by
  have hsteps := steps_start h script plan
  have hcycles := cycles_start h script plan
  refine ⟨?_, ?_, ?_, ?_⟩
  · rw [cpu_start h script plan]
    rfl
  · rw [hsteps]
    exact Nat.zero_le _
  · rw [syncCounters, hsteps, hcycles]
    rfl
  · rw [hsteps]
    rfl

theorem isFinished_start (h : Program.load image args settings = .ok program)
    (script : List UInt8) (plan : FailurePlan) :
    (start program script plan).isFinished = false := by
  rw [isFinished, cpu_start h script plan]
  rfl

/-! ### Results -/

variable {script : List UInt8} {plan : FailurePlan} {r : RunResult}

/-- A run that was not aborted has a result. -/
theorem result_of_ne (h : m.cpu.state ≠ .aborted) : m.result = .ok (RunResult.of m) :=
  if_neg h

theorem result_eq_ok (h : m.result = .ok r) : m.cpu.state ≠ .aborted ∧ r = RunResult.of m := by
  rw [result] at h
  split at h
  · cases h
  · cases h
    exact ⟨‹_›, rfl⟩

theorem runProgram_of_load (h : Program.load image args settings = .ok program)
    (script : List UInt8) (plan : FailurePlan) :
    runProgram image args script plan settings = (start program script plan).run.result := by
  rw [runProgram, h]

theorem exists_load_of_runProgram (h : runProgram image args script plan settings = .ok r) :
    ∃ program, Program.load image args settings = .ok program ∧
      (start program script plan).run.cpu.state ≠ .aborted ∧
      r = RunResult.of (start program script plan).run := by
  rw [runProgram] at h
  cases hload : Program.load image args settings with
  | error e =>
    rw [hload] at h
    cases h
  | ok program =>
    rw [hload] at h
    exact ⟨program, rfl, result_eq_ok h⟩

end Bench65.Machine
