import Bench65.Proofs.Machine.Console

/-!
# Input that is not read

* `unread_input`: what stands in the script behind the bytes that a run reads does not matter. A
  run that is never told that its input has ended is the same with a longer script: it ends in the
  same way, with the same transcript, counters, registers and memory, and leaves what was added
  behind what it left before. A run that is told so has been the same until then.

A longer script is a change of the console (`Console.withMore`), noticed by the requests that meet
the end of the script and by no others (`Request.overlooks_withMore`).
-/

namespace Bench65

namespace Console

variable {c : Console} {more : List UInt8}

/-- The console with a longer script. -/
def withMore (more : List UInt8) (c : Console) : Console :=
  { c with remaining := c.remaining ++ more }

theorem write_withMore (step : Nat) (stream : Stream) (bytes : List UInt8) :
    (c.withMore more).write step stream bytes =
      ((c.write step stream bytes).1, (c.write step stream bytes).2.withMore more) := by
  rw [write_eq, write_eq]
  rfl

/-- Reading no more than there is leaves what was added. -/
theorem read_withMore {count : Nat} (h : count ≤ c.remaining.length) (step : Nat) :
    (c.withMore more).read step count = (c.read step count).withMore more := by
  have htake : (c.withMore more).remaining.take count = c.remaining.take count :=
    List.take_append_of_le_length h
  have hdrop : (c.withMore more).remaining.drop count = c.remaining.drop count ++ more :=
    List.drop_append_of_le_length h
  unfold read
  rw [htake, hdrop]
  rfl

end Console

/-- A request that does not meet the end of the script does not notice that there is more. -/
theorem Call.Request.overlooks_withMore {c : Call} {q : Request} (h : ¬ q.MeetsEnd c)
    (more : List UInt8) : q.Overlooks (Console.withMore more) c := by
  have hle : q.wanted ≤ c.console.remaining.length := by
    rw [meetsEnd_iff] at h
    exact Nat.le_of_not_lt h
  refine ⟨?_, ?_, ?_⟩
  · intro m stream bytes result _
    exact Console.write_withMore c.step stream bytes
  · exact List.take_append_of_le_length hle
  · exact Console.read_withMore hle c.step

namespace Machine

variable {m : Machine}

/-- The next step calls a routine that meets the end of the script. -/
def MeetsEnd (m : Machine) : Prop :=
  ∃ routine ∈ m.called?, (routine.request (m.trapCall routine)).MeetsEnd (m.trapCall routine)

instance (m : Machine) : Decidable m.MeetsEnd :=
  inferInstanceAs (Decidable (∃ routine ∈ m.called?, _))

theorem overlooks_withMore (h : ¬ m.MeetsEnd) (more : List UInt8) :
    m.Overlooks (Console.withMore more) := by
  intro routine hcalled
  apply Call.Request.overlooks_withMore
  intro hend
  exact h ⟨routine, hcalled, hend⟩

theorem not_meetsEnd_of_isFinished (h : m.isFinished = true) : ¬ m.MeetsEnd := by
  rintro ⟨routine, hcalled, -⟩
  have hnone : m.called? = none := by
    apply called?_of_event
    rw [event_of_isFinished h]
    rfl
  rw [hnone] at hcalled
  cases hcalled

/-- It is enough to look at the steps of the run. -/
theorem Settled.not_meetsEnd (hm : m.Settled) {n : Nat}
    (hfinished : (step^[n] m).isFinished = true) (h : ∀ k < n, ¬ (step^[k] m).MeetsEnd) (k : Nat) :
    ¬ (step^[k] m).MeetsEnd := by
  rcases Nat.lt_or_ge k n with hlt | hge
  · exact h k hlt
  · rw [hm.iterate_eq_of_le hge hfinished]
    exact not_meetsEnd_of_isFinished hfinished

/-! ### Programs -/

variable {image : Image} {args : List (List UInt8)} {settings : Settings} {program : Program}

/-- What a run with a longer script has in common with the run it is compared to. -/
structure SameButUnread (m m' : Machine) (more : List UInt8) : Prop where
  result_eq : RunResult.of m' = RunResult.of m
  registers_eq : m'.cpu.registers = m.cpu.registers
  memory_eq : m'.memory = m.memory
  remaining_eq : m'.console.remaining = m.console.remaining ++ more

theorem sameButUnread_mapConsole (m : Machine) (more : List UInt8) :
    m.SameButUnread (m.mapConsole (Console.withMore more)) more :=
  ⟨rfl, rfl, rfl, rfl⟩

/-- **Unread input is irrelevant.** As long as no call meets the end of the script, the machine
with a longer script goes along with the machine step by step. If no call of the whole run does,
the runs come to the same and what was added to the script is left unread. -/
theorem unread_input (hload : Program.load image args settings = .ok program)
    (script more : List UInt8) (plan : FailurePlan) :
    (∀ n, (∀ k < n, ¬ (step^[k] (start program script plan)).MeetsEnd) →
      step^[n] (start program (script ++ more) plan) =
        (step^[n] (start program script plan)).mapConsole (Console.withMore more)) ∧
    ((∀ k, ¬ (step^[k] (start program script plan)).MeetsEnd) →
      (start program script plan).run.SameButUnread (start program (script ++ more) plan).run
        more) := by
  have hm := settled_start hload script plan
  have hm' := settled_start hload (script ++ more) plan
  have hstart : start program (script ++ more) plan =
    (start program script plan).mapConsole (Console.withMore more) := rfl
  -- the machine with more input is the other one with its console changed
  rw [hstart] at hm' ⊢
  constructor
  · intro n hn
    exact hm.iterate_mapConsole fun k hk => overlooks_withMore (hn k hk) more
  · intro h
    rw [hm.run_mapConsole hm' fun k => overlooks_withMore (h k) more]
    exact sameButUnread_mapConsole _ more

/-- Of two bytes `echoTwice` reads the first, and does not notice that the second is there. -/
theorem unread_input_echoTwice :
    ∃ program m m', Program.load echoTwice [] Settings.default = .ok program ∧
      m = (start program [66] FailurePlan.none).run ∧
      m' = (start program [66, 67] FailurePlan.none).run ∧
      m.cpu.state = .halted 66 ∧ m.SameButUnread m' [67] ∧ m'.console.remaining = [67] := by
  obtain ⟨program, hload, hstate, hremaining, hsteps⟩ : ∃ program,
      Program.load echoTwice [] Settings.default = .ok program ∧
      (step^[8] (start program [66] FailurePlan.none)).cpu.state = .halted 66 ∧
      (step^[8] (start program [66] FailurePlan.none)).console.remaining = [] ∧
      ∀ k < 8, ¬ (step^[k] (start program [66] FailurePlan.none)).MeetsEnd :=
    ⟨_, rfl, by decide +kernel⟩
  have hm := settled_start hload [66] FailurePlan.none
  have hfinished : (step^[8] (start program [66] FailurePlan.none)).isFinished = true := by
    rw [isFinished, hstate]
    rfl
  have hsame : (start program [66] FailurePlan.none).run.SameButUnread
      (start program [66, 67] FailurePlan.none).run [67] :=
    (unread_input hload [66] [67] FailurePlan.none).2 (hm.not_meetsEnd hfinished hsteps)
  have hrun := hm.run_eq_of_isFinished hfinished
  refine ⟨program, _, _, hload, rfl, rfl, ?_, hsame, ?_⟩
  · rw [hrun, hstate]
  · rw [hsame.remaining_eq, hrun, hremaining]
    rfl

end Machine

end Bench65
