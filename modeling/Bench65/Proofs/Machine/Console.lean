import Bench65.Proofs.Call.Console
import Bench65.Proofs.Machine.Accounting

/-!
# Machines with another console

Only the routine called by a step looks at the console. A machine whose console has been changed
goes along with the machine it was, step by step, as long as no routine notices the change
(`Settled.iterate_mapConsole`).
-/

namespace Bench65.Machine

variable {m : Machine} {f : Console → Console}

/-- The machine with a changed console. -/
def mapConsole (f : Console → Console) (m : Machine) : Machine :=
  { m with console := f m.console }

theorem mapConsole_of_eq (h : f m.console = m.console) : m.mapConsole f = m := by
  rw [mapConsole, h]

/-- The next step does not notice a change of the console. -/
def Overlooks (f : Console → Console) (m : Machine) : Prop :=
  ∀ routine, m.called? = some routine →
    (routine.request (m.trapCall routine)).Overlooks f (m.trapCall routine)

theorem afterEvent_trap_mapConsole {routine : Routine}
    (hlookup : m.registry.lookup m.cpu.registers.pc = some routine)
    (h : (routine.request (m.trapCall routine)).Overlooks f (m.trapCall routine)) :
    (m.mapConsole f).afterEvent (.trap m.cpu.registers.pc) =
      (m.afterEvent (.trap m.cpu.registers.pc)).mapConsole f := by
  have hlookup' : (m.mapConsole f).registry.lookup (m.mapConsole f).cpu.registers.pc =
      some routine := hlookup
  have hcall : (m.mapConsole f).trapCall routine = (m.trapCall routine).mapConsole f := rfl
  have htrap := afterEvent_trap hlookup'
  rw [hcall, Routine.perform_mapConsole h] at htrap
  rw [afterEvent_trap hlookup]
  refine htrap.trans ?_
  rcases routine.perform (m.trapCall routine) with ⟨(violation | -) | (- | status), c⟩
  · rfl
  · rfl
  · rfl
  · rfl

/-- One step goes along with the other. -/
theorem Settled.step_mapConsole (hm : m.Settled) (h : m.Overlooks f) :
    (m.mapConsole f).step = m.step.mapConsole f := by
  cases hrun : m.isFinished with
  | true =>
    have hrun' : (m.mapConsole f).isFinished = true := hrun
    rw [step_of_isFinished hrun, step_of_isFinished hrun']
    rfl
  | false =>
    have hactive := hm.isActive hrun
    have hevent : (m.mapConsole f).event = m.event := rfl
    rw [step, step, hevent]
    rcases Nat.lt_or_ge m.cpu.steps m.cpu.budget with hbudget | hbudget
    · cases hlookup : m.registry.lookup m.cpu.registers.pc with
      | some routine =>
        have hcalled := (called?_of_lookup hactive hbudget hlookup).2
        rw [event_of_lookup hactive hbudget hlookup]
        exact afterEvent_trap_mapConsole hlookup (h routine hcalled)
      | none =>
        cases hdecode : Instruction.decode m.cpu.variant (m.memory.read m.cpu.registers.pc) with
        | none =>
          rw [event_of_decode_eq_none hactive hbudget hlookup hdecode]
          rfl
        | some i =>
          rw [event_of_decode hactive hbudget hlookup hdecode]
          rfl
    · rw [event_of_budget_le hactive hbudget]
      rfl

/-- The machines go along with each other until a routine notices the change. -/
theorem Settled.iterate_mapConsole (hm : m.Settled) {n : Nat}
    (h : ∀ k < n, (step^[k] m).Overlooks f) :
    step^[n] (m.mapConsole f) = (step^[n] m).mapConsole f := by
  induction n with
  | zero => rfl
  | succ n ih =>
    have hbefore := ih fun k hk => h k (Nat.lt_succ_of_lt hk)
    rw [Function.iterate_succ_apply', Function.iterate_succ_apply', hbefore]
    exact (hm.iterate n).step_mapConsole (h n (Nat.lt_succ_self n))

/-- A change that no routine of a run notices is still there at its end. -/
theorem Settled.run_mapConsole (hm : m.Settled)
    (hm' : (m.mapConsole f).Settled) (h : ∀ k, (step^[k] m).Overlooks f) :
    (m.mapConsole f).run = m.run.mapConsole f := by
  obtain ⟨n, -, hn⟩ := hm.exists_finishesAt
  have hiterate := hm.iterate_mapConsole fun k (_ : k < n) => h k
  have hfinished : (step^[n] (m.mapConsole f)).isFinished = true := by
    rw [hiterate]
    exact hn.1
  rw [hm'.run_eq_of_isFinished hfinished, hm.run_eq hn, hiterate]

end Bench65.Machine
