import Bench65.Proofs.Machine.Run

/-!
# The budget is a cut-off

* `runProgram_cutOff`: a run under a smaller budget is the run under a larger one, up to the point
  where the smaller budget is used up. A run that ends before that is the same under both; a run
  that is cut off times out, and has written and read what the longer run had by then.

The machine under the smaller budget goes along with the other one step by step, as long as it has
not taken as many steps as it may (`Settled.iterate_withBudget`).
-/

namespace Bench65

namespace Machine

variable {m m' : Machine} {budget : Nat}

/-! ### The same machine under another budget -/

/-- The machine under another budget. -/
def withBudget (m : Machine) (budget : Nat) : Machine :=
  { m with cpu := { m.cpu with budget } }

theorem event_withBudget (hactive : m.cpu.isActive = true) (hlt : m.cpu.steps < m.cpu.budget)
    (hlt' : m.cpu.steps < budget) : (m.withBudget budget).event = m.event := by
  have hactive' : (m.withBudget budget).cpu.isActive = true := hactive
  have hlt'' : (m.withBudget budget).cpu.steps < (m.withBudget budget).cpu.budget := hlt'
  rw [event_eq hactive, event_eq hactive', if_neg (Nat.not_le.mpr hlt),
    if_neg (Nat.not_le.mpr hlt'')]
  rfl

/-- A step that neither budget forbids is the same under both. -/
theorem step_withBudget (hactive : m.cpu.isActive = true) (hlt : m.cpu.steps < m.cpu.budget)
    (hlt' : m.cpu.steps < budget) :
    (m.withBudget budget).step = m.step.withBudget budget := by
  rw [step, step, event_withBudget hactive hlt hlt']
  exact afterEvent_mapLimits (fun _ => budget) id m m.event

/-- A machine that has used up its budget times out. -/
theorem step_of_budget_le (hactive : m.cpu.isActive = true) (hle : m.cpu.budget ≤ m.cpu.steps) :
    m.step = m.stopped (.timeout m.cpu.steps) := by
  rw [step, event_eq hactive, if_pos hle]
  rfl

theorem Settled.withBudget (h : m.Settled) (hle : m.cpu.steps ≤ budget) :
    (m.withBudget budget).Settled where
  trappedAt?_eq_none := h.trappedAt?_eq_none
  steps_le := hle
  syncCounters_eq := congrArg (Machine.withBudget · budget) h.syncCounters_eq
  upTo_steps := h.upTo_steps

/-- As long as the smaller budget lasts, the machine goes along with itself under the larger
one. -/
theorem Settled.iterate_withBudget (h : m.Settled) (hbudget : budget ≤ m.cpu.budget) {n : Nat}
    (hn : m.cpu.steps + n ≤ budget) :
    step^[n] (m.withBudget budget) = (step^[n] m).withBudget budget := by
  induction n with
  | zero => rfl
  | succ n ih =>
    rw [Function.iterate_succ_apply', Function.iterate_succ_apply',
      ih (Nat.le_of_succ_le hn)]
    cases hrun : (step^[n] m).isFinished with
    | true =>
      have hrun' : ((step^[n] m).withBudget budget).isFinished = true := hrun
      rw [step_of_isFinished hrun, step_of_isFinished hrun']
      rfl
    | false =>
      -- so far every step was counted, which leaves one more in both budgets
      have hsteps := h.steps_iterate hrun
      have hkeeps := h.keeps_iterate n
      refine step_withBudget ((h.iterate n).isActive hrun) ?_ ?_
      · rw [hkeeps.budget_eq]
        omega
      · omega

/-- A run that ends soon enough does not notice the smaller budget. -/
theorem Settled.run_withBudget_of_isFinished (h : m.Settled) (hbudget : budget ≤ m.cpu.budget)
    {n : Nat} (hn : m.cpu.steps + n ≤ budget) (hfinished : (step^[n] m).isFinished = true) :
    (m.withBudget budget).run = m.run.withBudget budget := by
  have hiterate := h.iterate_withBudget hbudget hn
  have hfinished' : (step^[n] (m.withBudget budget)).isFinished = true := by
    rw [hiterate]
    exact hfinished
  rw [(h.withBudget (by omega)).run_eq_of_isFinished hfinished', hiterate,
    h.run_eq_of_isFinished hfinished]

/-- A run that does not end soon enough is cut off. -/
theorem Settled.run_withBudget_of_not_isFinished (h : m.Settled)
    (hbudget : budget ≤ m.cpu.budget) {n : Nat} (hn : m.cpu.steps + n = budget)
    (hrun : (step^[n] m).isFinished = false) :
    (m.withBudget budget).run = ((step^[n] m).withBudget budget).stopped (.timeout budget) := by
  have hiterate := h.iterate_withBudget hbudget (Nat.le_of_eq hn)
  have hsteps : ((step^[n] m).withBudget budget).cpu.steps = budget :=
    (h.steps_iterate hrun).trans hn
  have hactive : ((step^[n] m).withBudget budget).cpu.isActive = true :=
    (Cpu.isActive_iff _).mpr ⟨hrun, (h.iterate n).trappedAt?_eq_none⟩
  have hstep : step^[n + 1] (m.withBudget budget) =
      ((step^[n] m).withBudget budget).stopped (.timeout budget) := by
    rw [Function.iterate_succ_apply', hiterate,
      step_of_budget_le hactive (Nat.le_of_eq hsteps.symm), hsteps]
  have hfinished : (step^[n + 1] (m.withBudget budget)).isFinished = true := by
    rw [hstep]
    rfl
  rw [(h.withBudget (by omega)).run_eq_of_isFinished hfinished, hstep]

/-- The only steps that are not counted find the budget used up or no instruction. -/
theorem Transition.of_steps_eq (h : Transition m m') (hsteps : m'.cpu.steps = m.cpu.steps) :
    (∃ steps, m'.cpu.state = .faulted (.timeout steps)) ∨
      ∃ a opcode, m'.cpu.state = .faulted (.illegalInstruction a opcode) := by
  cases h with
  | timeout hbudget => exact .inl ⟨_, rfl⟩
  | illegal hbudget hlookup hdecode => exact .inr ⟨_, _, rfl⟩
  | _ => exact absurd hsteps (Nat.succ_ne_self _)

end Machine

/-! ### Results -/

/-- The kind of the fault, if there was one. -/
def RunResult.faultKind? (r : RunResult) : Option FaultKind :=
  r.fault?.map Fault.kind

/-- A run that a budget does not cut off: it did not time out, and it took fewer steps, or as many
without meeting an illegal instruction after the last one. -/
def RunResult.Within (r : RunResult) (budget : Nat) : Prop :=
  r.faultKind? ≠ some .timeout ∧
    (r.counters.steps < budget ∨
      r.counters.steps = budget ∧ r.faultKind? ≠ some .illegalInstruction)

instance (r : RunResult) (budget : Nat) : Decidable (r.Within budget) :=
  inferInstanceAs (Decidable (_ ∧ _))

namespace Machine

variable {m m' : Machine} {budget : Nat}

theorem faultKind?_of_faulted {fault : Fault} (h : m.cpu.state = .faulted fault) :
    (RunResult.of m).faultKind? = some fault.kind := by
  rw [RunResult.faultKind?, RunResult.fault?, RunResult.of, Cpu.outcome, h]
  rfl

theorem exists_faulted_of_faultKind? {kind : FaultKind} (hfinished : m.isFinished = true)
    (habort : m.cpu.state ≠ .aborted) (h : (RunResult.of m).faultKind? = some kind) :
    ∃ fault, m.cpu.state = .faulted fault ∧ fault.kind = kind := by
  rw [RunResult.faultKind?, RunResult.fault?, RunResult.of, Cpu.outcome] at h
  cases hstate : m.cpu.state with
  | halted status =>
    rw [hstate] at h
    cases h
  | faulted fault =>
    rw [hstate] at h
    exact ⟨fault, rfl, Option.some.inj h⟩
  | aborted => exact absurd hstate habort
  | _ =>
    rw [isFinished, hstate] at hfinished
    cases hfinished

/-- A last step from a machine that has used up the budget leaves a run that is not within it. -/
theorem Transition.not_within (h : Transition m m') (hsync : m'.counters.steps = m'.cpu.steps)
    (hle : budget ≤ m.cpu.steps) : ¬ (RunResult.of m').Within budget := by
  rintro ⟨htimeout, hsteps⟩
  have hsteps' : m'.cpu.steps < budget ∨
      m'.cpu.steps = budget ∧ (RunResult.of m').faultKind? ≠ some .illegalInstruction := by
    rw [← hsync]
    exact hsteps
  have hkept : m'.cpu.steps = m.cpu.steps := by
    rcases h.steps with ⟨-, heq⟩ | ⟨fault, rfl⟩
    · omega
    · rfl
  rcases hsteps' with hlt | ⟨-, hillegal⟩
  · omega
  rcases h.of_steps_eq hkept with ⟨steps, hstate⟩ | ⟨a, opcode, hstate⟩
  · exact htimeout (faultKind?_of_faulted hstate)
  · exact hillegal (faultKind?_of_faulted hstate)

/-- A last step from a machine that has not used up the budget leaves a run that is within it. -/
theorem Transition.within (h : Transition m m') (hsync : m'.counters.steps = m'.cpu.steps)
    (hfinished : m'.isFinished = true) (habort : m'.cpu.state ≠ .aborted)
    (hlt : m.cpu.steps < budget) (hbudget : budget ≤ m.cpu.budget) :
    (RunResult.of m').Within budget := by
  refine ⟨?_, ?_⟩
  · intro hkind
    obtain ⟨fault, hstate, hfault⟩ := exists_faulted_of_faultKind? hfinished habort hkind
    cases fault with
    | timeout steps =>
      have := (h.of_timeout hstate).1
      omega
    | _ => cases hfault
  · show m'.counters.steps < budget ∨ m'.counters.steps = budget ∧ _
    rw [hsync]
    rcases h.steps with ⟨-, hsteps⟩ | ⟨fault, rfl⟩
    · rcases Nat.lt_or_eq_of_le (Nat.succ_le_of_lt hlt) with hlt' | heq
      · exact .inl (by omega)
      -- a step that is counted finds an instruction or a routine
      refine .inr ⟨by omega, ?_⟩
      intro hkind
      obtain ⟨fault, hstate, hfault⟩ := exists_faulted_of_faultKind? hfinished habort hkind
      cases fault with
      | illegalInstruction a opcode =>
        obtain ⟨-, -, -, -, -, rfl⟩ := h.of_illegalInstruction hstate
        exact absurd hsteps (Nat.succ_ne_self _).symm
      | _ => cases hfault
    · exact .inl hlt

/-- A run with a result is within a budget if and only if it is over after as many steps. -/
theorem Settled.within_iff (h : m.Settled) (hstart : m.isFinished = false)
    (hzero : m.cpu.steps = 0) (hbudget : budget ≤ m.cpu.budget)
    (habort : m.run.cpu.state ≠ .aborted) :
    (RunResult.of m.run).Within budget ↔ (step^[budget] m).isFinished = true := by
  obtain ⟨n, -, hn⟩ := h.exists_finishesAt
  obtain ⟨k, hlast, ht⟩ := h.exists_isLastStep hstart hn.1
  have hsteps : (step^[k] m).cpu.steps = k := by
    rw [h.steps_iterate hlast.isFinished_eq_false, hzero, Nat.zero_add]
  have hsync := (h.iterate n).counters_steps_eq
  rw [h.run_eq hn] at habort ⊢
  -- what matters is how many steps came before the last one
  by_cases hlt : k < budget
  · have hwithin := ht.within hsync hn.1 habort (hsteps.trans_lt hlt)
      (hbudget.trans_eq (h.keeps_iterate k).budget_eq.symm)
    have hend : (step^[k + 1] m).isFinished = true := by
      rw [← hlast.iterate_eq]
      exact hn.1
    rw [h.iterate_eq_of_le hlt hend, hend]
    exact iff_of_true hwithin rfl
  · -- the machine was unfinished when it made its last step, and so it was before
    have hle := Nat.le_of_not_lt hlt
    have hrun := h.isFinished_of_le hle hlast.isFinished_eq_false
    rw [hrun]
    exact iff_of_false (ht.not_within hsync (hle.trans_eq hsteps.symm)) Bool.false_ne_true

end Machine

/-! ### Programs -/

section Programs

variable {image : Image} {args : List (List UInt8)} {script : List UInt8} {plan : FailurePlan}
  {settings : Settings} {budget : Nat} {r : RunResult}

/-- The budget plays no part in loading. -/
theorem Program.load_stepBudget {program : Program}
    (h : Program.load image args settings = .ok program) (budget : Nat) :
    Program.load image args { settings with stepBudget := budget } =
      .ok { program with cpu := { program.cpu with budget } } := by
  obtain ⟨_, _, -, -, -, hcpu, -⟩ := load_eq_ok h
  have hload : load image args { settings with stepBudget := budget } = _ :=
    load_of_agree h rfl rfl rfl rfl
  rw [hload, hcpu]
  rfl

/-- **The budget is only a cut-off.** A run within a smaller budget is the same under it: the same
outcome, transcript and counters. Any other run times out under the smaller budget, having written
and read exactly what it had by then. -/
theorem runProgram_cutOff (hbudget : budget ≤ settings.stepBudget)
    (h : runProgram image args script plan settings = .ok r) :
    (r.Within budget →
      runProgram image args script plan { settings with stepBudget := budget } = .ok r) ∧
    (¬ r.Within budget →
      ∃ s, runProgram image args script plan { settings with stepBudget := budget } = .ok s ∧
        s.outcome = .faulted (.timeout budget) ∧
        s.transcript = r.transcript.upTo budget) := by
  obtain ⟨program, hload, habort, rfl⟩ := Machine.exists_load_of_runProgram h
  have hm := Machine.settled_start hload script plan
  have hcpu := Machine.cpu_start hload script plan
  have hzero : (Machine.start program script plan).cpu.steps = 0 := by
    rw [hcpu]
    rfl
  have hle : budget ≤ (Machine.start program script plan).cpu.budget := by
    rw [hcpu]
    exact hbudget
  have hrun : runProgram image args script plan { settings with stepBudget := budget } =
      ((Machine.start program script plan).withBudget budget).run.result :=
    Machine.runProgram_of_load (Program.load_stepBudget hload budget) script plan
  have hsum : (Machine.start program script plan).cpu.steps + budget = budget := by
    rw [hzero, Nat.zero_add]
  rw [hm.within_iff (Machine.isFinished_start hload script plan) hzero hle habort]
  constructor
  · intro hfinished
    rw [hrun, hm.run_withBudget_of_isFinished hle (Nat.le_of_eq hsum) hfinished]
    exact Machine.result_of_ne habort
  · intro hnot
    have hrunning := (Bool.not_eq_true _).mp hnot
    have hcut := hm.run_withBudget_of_not_isFinished hle hsum hrunning
    -- the long run goes on from where the short one is cut off
    obtain ⟨d, hd⟩ := hm.exists_run_eq budget
    have hkept := (hm.iterate budget).upTo_iterate d
    rw [hm.steps_iterate hrunning, hsum, ← hd] at hkept
    rw [hcut] at hrun
    exact ⟨_, hrun, rfl, hkept.symm⟩

end Programs

/-- A program that writes a letter twice and exits in its seventh step: `LDA #65`, `JSR $0300`,
`JSR $0300`, `JMP $FFF9`, with `putchar` at `$0300`. -/
def twoLetters : Image :=
  { Image.raw [0xA9, 65, 0x20, 0, 3, 0x20, 0, 3, 0x4C, 0xF9, 0xFF] 0x200 0x200 .nmos with
    symbols := ⟨[("_putchar", 0x300)]⟩ }

/-- A budget of seven steps changes nothing; after four steps the second letter is missing. -/
theorem runProgram_cutOff_twoLetters :
    ∃ r s, runProgram twoLetters [] [] FailurePlan.none Settings.default = .ok r ∧
      r.outcome = .exited 65 ∧
      r.transcript.outputs = #[⟨3, .stdout, [65]⟩, ⟨5, .stdout, [65]⟩] ∧
      runProgram twoLetters [] [] FailurePlan.none { Settings.default with stepBudget := 7 } =
        .ok r ∧
      runProgram twoLetters [] [] FailurePlan.none { Settings.default with stepBudget := 4 } =
        .ok s ∧
      s.outcome = .faulted (.timeout 4) ∧
      s.transcript.outputs = #[⟨3, .stdout, [65]⟩] := by
  obtain ⟨program, m, hload, rfl, habort, hexit, hout, hwithin, hnot, hcut⟩ : ∃ program m,
      Program.load twoLetters [] Settings.default = .ok program ∧
      m = (Machine.start program [] FailurePlan.none).run ∧ m.cpu.state ≠ .aborted ∧
      (RunResult.of m).outcome = .exited 65 ∧
      (RunResult.of m).transcript.outputs = #[⟨3, .stdout, [65]⟩, ⟨5, .stdout, [65]⟩] ∧
      (RunResult.of m).Within 7 ∧ ¬ (RunResult.of m).Within 4 ∧
      ((RunResult.of m).transcript.upTo 4).outputs = #[⟨3, .stdout, [65]⟩] :=
    ⟨_, _, rfl, rfl, by decide +kernel⟩
  have hr : runProgram twoLetters [] [] FailurePlan.none Settings.default = .ok (RunResult.of _) :=
    (Machine.runProgram_of_load hload [] FailurePlan.none).trans (Machine.result_of_ne habort)
  -- seven steps are enough for the whole run, four only for the first letter
  have hsame := (runProgram_cutOff (by decide) hr).1 hwithin
  obtain ⟨s, hs, houtcome, htranscript⟩ := (runProgram_cutOff (by decide) hr).2 hnot
  exact ⟨_, s, hr, hexit, hout, hsame, hs, houtcome,
    (congrArg Transcript.outputs htranscript).trans hcut⟩

end Bench65
