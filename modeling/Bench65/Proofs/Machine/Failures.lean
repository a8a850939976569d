import Bench65.Proofs.Machine.Console

/-!
# Failure plans and the calls they name

* `plans_agree`: a failure plan acts at the calls it names and nowhere else. Two runs of a program
  under plans that agree about the first write calls are in the same state, the plan apart, for as
  long as no other call has been made, and what they have written and read by then is the same.

Another plan is a change of the console (`Console.withPlan`), noticed by a write call about which
the plans differ. The call made by a step has the number of the calls made before it
(`Settled.writeCalls_step`), so that all calls up to some state were below the number it has
reached.
-/

namespace Bench65

namespace Console

variable {c : Console} {plan : FailurePlan}

/-- The console with another failure plan. -/
def withPlan (plan : FailurePlan) (c : Console) : Console :=
  { c with plan }

/-- A write does not notice a plan that says the same about it. -/
theorem write_withPlan (h : plan.fails c.writeCalls = c.plan.fails c.writeCalls) (step : Nat)
    (stream : Stream) (bytes : List UInt8) :
    (c.withPlan plan).write step stream bytes =
      ((c.write step stream bytes).1, (c.write step stream bytes).2.withPlan plan) := by
  have houtcome : (c.withPlan plan).outcome bytes = c.outcome bytes := by
    unfold outcome
    show (if plan.fails c.writeCalls then _ else _) = _
    rw [h]
    rfl
  have hrecord : (c.withPlan plan).record step stream bytes = c.record step stream bytes := by
    unfold record
    show (if plan.fails c.writeCalls then _ else _) = _
    rw [h]
  rw [write_eq, write_eq, houtcome, hrecord]
  rfl

/-- The console that already has the plan. -/
theorem withPlan_of_eq (h : c.plan = plan) : c.withPlan plan = c := by
  rw [withPlan, ← h]

end Console

/-- A request does not notice a plan that says the same about the next write call, if it makes
one. -/
theorem Call.Request.overlooks_withPlan {c : Call} {q : Request} {plan : FailurePlan}
    (h : ∀ m stream bytes result, q = .write m stream bytes result →
      plan.fails c.console.writeCalls = c.console.plan.fails c.console.writeCalls) :
    q.Overlooks (Console.withPlan plan) c := by
  refine ⟨?_, rfl, rfl⟩
  intro m stream bytes result hq
  exact Console.write_withPlan (h m stream bytes result hq) c.step stream bytes

namespace Machine

variable {m m' : Machine} {plan : FailurePlan} {calls n : Nat}

/-! ### The console of a step -/

/-- A step that calls a routine leaves the console that the routine leaves. -/
theorem Settled.console_step (hm : m.Settled) {routine : Routine}
    (hcalled : m.called? = some routine) :
    m.step.console = (routine.perform (m.trapCall routine)).2.console := by
  rw [hm.step_of_called? hcalled]
  rcases routine.perform (m.trapCall routine) with ⟨(violation | -) | (- | status), c⟩
  · rfl
  · rfl
  · rfl
  · rfl

/-- A routine that asks for a write makes one write call, whatever becomes of it. -/
theorem Settled.writeCalls_step (hm : m.Settled) {routine : Routine} {memory : Memory}
    {stream : Stream} {bytes : List UInt8} {result : Nat → UInt16}
    (hcalled : m.called? = some routine)
    (hrequest : routine.request (m.trapCall routine) = .write memory stream bytes result) :
    m.step.console.writeCalls = m.console.writeCalls + 1 := by
  have hwrite : (routine.perform (m.trapCall routine)).2.console =
      (m.console.write (m.cpu.steps + 1) stream bytes).2 := by
    rw [Routine.perform_eq_answer, hrequest, Call.Request.answer, Call.writeAndReturn_eq]
    rfl
  rw [hm.console_step hcalled, hwrite, Console.write_snd]

theorem Charged.plan_eq (hcharged : m.Charged m') : m'.console.plan = m.console.plan := by
  cases hcharged with
  | idle hevent hcalled => rfl
  | nothing fault hevent hcalled => rfl
  | instruction i hevent hcalled hcycles => rfl
  | call routine c registers state hevent hcalled huses => exact huses.plan_eq

theorem Settled.plan_iterate (hm : m.Settled) (n : Nat) :
    (step^[n] m).console.plan = m.console.plan := by
  induction n with
  | zero => rfl
  | succ n ih =>
    rw [Function.iterate_succ_apply', ← ih]
    exact (hm.iterate n).charged.plan_eq

theorem Settled.writeCalls_iterate_mono (hm : m.Settled) :
    Monotone fun k => (step^[k] m).console.writeCalls := by
  apply monotone_nat_of_le_succ
  intro k
  rw [Function.iterate_succ_apply']
  exact (hm.iterate k).charged.writeCalls.1

/-! ### Other plans -/

/-- A step that makes no call about which the plans differ does not notice the other plan. -/
theorem Settled.overlooks_withPlan (hm : m.Settled)
    (hplans : ∀ i < calls, plan.fails i = m.console.plan.fails i)
    (hcalls : m.step.console.writeCalls ≤ calls) : m.Overlooks (Console.withPlan plan) := by
  intro routine hcalled
  apply Call.Request.overlooks_withPlan
  intro memory stream bytes result hrequest
  apply hplans
  show m.console.writeCalls < calls
  rw [hm.writeCalls_step hcalled hrequest] at hcalls
  exact hcalls

/-- The machines go along with each other until a call about which the plans differ. -/
theorem Settled.iterate_withPlan (hm : m.Settled)
    (hplans : ∀ i < calls, plan.fails i = m.console.plan.fails i)
    (hcalls : (step^[n] m).console.writeCalls ≤ calls) :
    step^[n] (m.mapConsole (Console.withPlan plan)) =
      (step^[n] m).mapConsole (Console.withPlan plan) := by
  apply hm.iterate_mapConsole
  intro k hk
  have hplans' : ∀ i < calls, plan.fails i = (step^[k] m).console.plan.fails i := by
    rw [hm.plan_iterate]
    exact hplans
  -- the calls of an earlier step are among those made by the last one
  have hcalls' : (step^[k] m).step.console.writeCalls ≤ calls := by
    rw [← Function.iterate_succ_apply' step]
    exact Nat.le_trans (hm.writeCalls_iterate_mono hk) hcalls
  exact (hm.iterate k).overlooks_withPlan hplans' hcalls'

/-! ### Programs -/

variable {image : Image} {args : List (List UInt8)} {settings : Settings} {program : Program}

/-- **Failures happen at the calls named and nowhere else.** While no more write calls have been
made, in either run, than the plans agree about, the machines differ in their plans alone, and the
transcripts of both runs say the same about what happened up to there. -/
theorem plans_agree (hload : Program.load image args settings = .ok program)
    (script : List UInt8) {plan plan' : FailurePlan}
    (hplans : ∀ i < calls, plan.fails i = plan'.fails i)
    (hcalls : (step^[n] (start program script plan)).console.writeCalls ≤ calls ∨
      (step^[n] (start program script plan')).console.writeCalls ≤ calls) :
    step^[n] (start program script plan') =
        (step^[n] (start program script plan)).mapConsole (Console.withPlan plan') ∧
      (start program script plan').run.console.transcript.upTo
          (step^[n] (start program script plan)).cpu.steps =
        (start program script plan).run.console.transcript.upTo
          (step^[n] (start program script plan)).cpu.steps := by
  have hm := settled_start hload script plan
  have hm' := settled_start hload script plan'
  have hiterate : step^[n] (start program script plan') =
      (step^[n] (start program script plan)).mapConsole (Console.withPlan plan') := by
    rcases hcalls with hcalls | hcalls
    · exact hm.iterate_withPlan (fun i hi => (hplans i hi).symm) hcalls
    · -- the first machine goes along with the second, which has kept its own plan
      have hback : step^[n] (start program script plan) =
          (step^[n] (start program script plan')).mapConsole (Console.withPlan plan) :=
        hm'.iterate_withPlan hplans hcalls
      rw [hback]
      exact (mapConsole_of_eq (Console.withPlan_of_eq (hm'.plan_iterate n))).symm
  refine ⟨hiterate, ?_⟩
  have hrun' := hm'.upTo_run n
  rw [hiterate] at hrun'
  rw [hm.upTo_run]
  exact hrun'

/-- `echoTwice` makes its first write after five steps, and its second one, refused in one of the
runs, not yet. -/
theorem plans_agree_echoTwice :
    ∃ program m m', Program.load echoTwice [] Settings.default = .ok program ∧
      m = step^[5] (start program [66] FailurePlan.none) ∧
      m' = step^[5] (start program [66] ⟨[1], none⟩) ∧
      m.console.writeCalls = 1 ∧ m' = m.mapConsole (Console.withPlan ⟨[1], none⟩) := by
  obtain ⟨program, hload, hcalls⟩ : ∃ program,
      Program.load echoTwice [] Settings.default = .ok program ∧
      (step^[5] (start program [66] FailurePlan.none)).console.writeCalls = 1 :=
    ⟨_, rfl, by decide +kernel⟩
  have hplans : ∀ i < 1, FailurePlan.none.fails i = FailurePlan.fails ⟨[1], none⟩ i := by decide
  have hagree := plans_agree hload [66] hplans (.inl hcalls.le)
  exact ⟨program, _, _, hload, rfl, rfl, hcalls, hagree.1⟩

end Machine

end Bench65
