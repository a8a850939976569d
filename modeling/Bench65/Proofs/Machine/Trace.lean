import Bench65.Proofs.Disassembly
import Bench65.Proofs.Machine.Run

/-!
# The trace shows what runs

* `trace_faithful`: the text of an instruction is that of no other one and says where execution
  goes on, and a run with tracing on is the run without it, with one line for each instruction
  executed.

`Machine.Traced` says which lines belong to a run, whether or not it is traced
(`Machine.Settled.exists_traced`). Tracing plays no part in a step (`Machine.step_withTracing`).
-/

namespace Bench65

namespace Machine

variable {m : Machine}

/-! ### The lines of a run -/

/-- The next step executes no instruction: the budget is used up, a routine is answered, or there
is no instruction. -/
def Silent (m : Machine) : Prop :=
  m.cpu.budget ≤ m.cpu.steps ∨ (m.registry.lookup m.cpu.registers.pc).isSome = true ∨
    Instruction.decode m.cpu.variant (m.memory.read m.cpu.registers.pc) = none

/-- A run to its end, with the lines that show it: one for each instruction, made of the machine
that is about to execute it, and none for the other steps. -/
inductive Traced : Machine → List String → Machine → Prop
  /-- The run is over. -/
  | finished {m : Machine} (hend : m.isFinished = true) : Traced m [] m
  /-- An instruction is executed. -/
  | executed {m m' : Machine} {lines : List String} (i : Instruction)
      (hrun : m.isFinished = false) (hbudget : m.cpu.steps < m.cpu.budget)
      (hlookup : m.registry.lookup m.cpu.registers.pc = none)
      (hdecode : Instruction.decode m.cpu.variant (m.memory.read m.cpu.registers.pc) = some i)
      (hrest : Traced (m.afterInstruction i) lines m') :
      Traced m (m.cpu.traceLine i m.memory :: lines) m'
  /-- A step executes no instruction. -/
  | silent {m m' : Machine} {lines : List String} (hrun : m.isFinished = false)
      (hsilent : m.Silent) (hrest : Traced m.step lines m') : Traced m lines m'

theorem not_silent_iff : ¬ m.Silent ↔
    m.cpu.steps < m.cpu.budget ∧ m.registry.lookup m.cpu.registers.pc = none ∧
      ∃ i, Instruction.decode m.cpu.variant (m.memory.read m.cpu.registers.pc) = some i := by
  rw [Silent, not_or, not_or, Nat.not_le, Option.not_isSome_iff_eq_none, ← ne_eq,
    Option.ne_none_iff_exists']

/-- There is only one end of a run, and only one list of lines that show it. -/
theorem Traced.unique {m₁ m₂ : Machine} {lines₁ lines₂ : List String} (h₁ : m.Traced lines₁ m₁)
    (h₂ : m.Traced lines₂ m₂) : lines₁ = lines₂ ∧ m₁ = m₂ := by
  -- the three kinds of steps exclude each other, so the second trace takes the same turn
  induction h₁ generalizing lines₂ m₂ with
  | finished hend =>
    cases h₂ with
    | finished => exact ⟨rfl, rfl⟩
    | executed i hrun => cases hend.symm.trans hrun
    | silent hrun => cases hend.symm.trans hrun
  | executed i hrun hbudget hlookup hdecode hrest ih =>
    cases h₂ with
    | finished hend => cases hend.symm.trans hrun
    | executed j _ _ _ hdecode' hrest' =>
      obtain rfl := Option.some.inj (hdecode.symm.trans hdecode')
      obtain ⟨rfl, rfl⟩ := ih hrest'
      exact ⟨rfl, rfl⟩
    | silent _ hsilent => cases not_silent_iff.mpr ⟨hbudget, hlookup, _, hdecode⟩ hsilent
  | silent hrun hsilent hrest ih =>
    cases h₂ with
    | finished hend => cases hend.symm.trans hrun
    | executed i _ hbudget hlookup hdecode =>
      cases not_silent_iff.mpr ⟨hbudget, hlookup, _, hdecode⟩ hsilent
    | silent _ _ hrest' => exact ih hrest'

theorem trace?_of_silent (hactive : m.cpu.isActive = true) (h : m.Silent) : m.trace? = none := by
  have hevent : m.cpu.trace? m.memory m.event = none := by
    rw [event_eq hactive]
    split_ifs with hbudget hlookup
    · rfl
    · rfl
    · have hdecode := (h.resolve_left hbudget).resolve_left hlookup
      rw [hdecode]
      rfl
  rw [trace?, hevent, ite_self]

theorem trace?_of_decode {i : Instruction} (hactive : m.cpu.isActive = true)
    (htracing : m.cpu.tracing = true) (hbudget : m.cpu.steps < m.cpu.budget)
    (hlookup : m.registry.lookup m.cpu.registers.pc = none)
    (hdecode : Instruction.decode m.cpu.variant (m.memory.read m.cpu.registers.pc) = some i) :
    m.trace? = some (m.cpu.traceLine i m.memory) := by
  rw [trace?, if_pos htracing, event_of_decode hactive hbudget hlookup hdecode, Cpu.trace?,
    if_pos htracing]

/-- With tracing on, the lines collected are those that show the run. -/
theorem Settled.exists_traced (h : m.Settled) (htracing : m.cpu.tracing = true) {n fuel : Nat}
    (hn : m.FinishesAt n) (hle : n ≤ fuel) (before : Array String) :
    ∃ lines, Traced m lines (step^[n] m) ∧
      runForTraced fuel m before = (step^[n] m, before ++ lines.toArray) := by
  -- the lines collected before are generalized, as the loop adds to them
  induction n generalizing m fuel before with
  | zero =>
    refine ⟨[], .finished hn.1, ?_⟩
    rw [Array.append_empty]
    cases fuel with
    | zero => rfl
    | succ fuel => exact if_pos hn.1
  | succ n ih =>
    obtain ⟨fuel, rfl⟩ := Nat.exists_eq_add_of_le' (Nat.one_le_of_lt hle)
    obtain ⟨hrun, hrest⟩ := hn.next
    have hactive := h.isActive hrun
    have htracing' : m.step.cpu.tracing = true := h.keeps_step.tracing_eq.trans htracing
    have hle' : n ≤ fuel := Nat.le_of_succ_le_succ hle
    rw [runForTraced, if_neg (Bool.eq_false_iff.mp hrun), Function.iterate_succ_apply]
    dsimp only
    by_cases hsilent : m.Silent
    · obtain ⟨lines, htraced, hlines⟩ := ih h.next htracing' hrest hle' before
      refine ⟨lines, .silent hrun hsilent htraced, ?_⟩
      rw [trace?_of_silent hactive hsilent]
      exact hlines
    · obtain ⟨hbudget, hlookup, i, hdecode⟩ := not_silent_iff.mp hsilent
      obtain ⟨lines, htraced, hlines⟩ :=
        ih h.next htracing' hrest hle' (before.push (m.cpu.traceLine i m.memory))
      rw [trace?_of_decode hactive htracing hbudget hlookup hdecode]
      refine ⟨m.cpu.traceLine i m.memory :: lines, ?_, ?_⟩
      · have hstep := step_of_decode hactive hbudget hlookup hdecode
        exact .executed i hrun hbudget hlookup hdecode (hstep ▸ htraced)
      · rw [Option.elim_some, hlines]
        simp

/-! ### Tracing on and off -/

/-- The machine with tracing on or off. -/
def withTracing (m : Machine) (on : Bool) : Machine :=
  { m with cpu := { m.cpu with tracing := on } }

theorem step_withTracing (m : Machine) (on : Bool) :
    (m.withTracing on).step = m.step.withTracing on :=
  afterEvent_mapLimits id (fun _ => on) m m.event

theorem runFor_withTracing (fuel : Nat) (m : Machine) (on : Bool) :
    runFor fuel (m.withTracing on) = (runFor fuel m).withTracing on := by
  induction fuel generalizing m with
  | zero => rfl
  | succ fuel ih =>
    have hfinished : (m.withTracing on).isFinished = m.isFinished := rfl
    rw [runFor, runFor, hfinished, step_withTracing, ih]
    split
    · rfl
    · rfl

/-- Tracing plays no part in a run. -/
theorem run_withTracing (m : Machine) (on : Bool) :
    (m.withTracing on).run = m.run.withTracing on :=
  runFor_withTracing m.fuel m on

theorem tracing_step (h : m.cpu.tracing = false) : m.step.cpu.tracing = false := by
  have hself : m.withTracing false = m := by
    rw [withTracing, ← h]
  have hstep := step_withTracing m false
  rw [hself] at hstep
  rw [hstep]
  rfl

/-- With tracing off no lines are collected. -/
theorem runForTraced_of_tracing_eq_false (h : m.cpu.tracing = false) (fuel : Nat)
    (before : Array String) : runForTraced fuel m before = (runFor fuel m, before) := by
  induction fuel generalizing m with
  | zero => rfl
  | succ fuel ih =>
    have hline : m.trace? = none := by
      rw [trace?, h]
      rfl
    rw [runForTraced, runFor, hline]
    split
    · rfl
    · exact ih (tracing_step h)

end Machine

/-! ### Programs -/

theorem Machine.runForTraced_fst (fuel : Nat) (m : Machine) (before : Array String) :
    (runForTraced fuel m before).1 = runFor fuel m := by
  induction fuel generalizing m before with
  | zero => rfl
  | succ fuel ih =>
    rw [runForTraced, runFor]
    split
    · rfl
    · exact ih m.step _

/-- What can be seen of a run does not depend on the tracing. -/
theorem Machine.result_withTracing (m : Machine) (on : Bool) :
    (m.withTracing on).result = m.result := rfl

/-- Tracing plays no part in loading. -/
theorem Program.load_tracing (image : Image) (args : List (List UInt8)) (settings : Settings)
    (on : Bool) : Program.load image args { settings with tracing := on } =
      (fun program => { program with cpu := { program.cpu with tracing := on } }) <$>
        Program.load image args settings := by
  simp only [Program.load, map_bind, map_pure]
  rfl

variable (image : Image) (args : List (List UInt8)) (script : List UInt8) (plan : FailurePlan)
  (settings : Settings)

theorem runProgramTraced_map_fst :
    (runProgramTraced image args script plan { settings with tracing := true }).map Prod.fst =
      runProgram image args script plan { settings with tracing := false } := by
  rw [runProgramTraced, runProgram, Program.load_tracing image args settings true,
    Program.load_tracing image args settings false]
  cases Program.load image args settings with
  | error e => rfl
  | ok program =>
    -- both runs are that of the loaded machine with the flag set on its end
    have hon : ((Machine.start program script plan).withTracing true).runTraced.1 =
        (Machine.start program script plan).run.withTracing true :=
      (Machine.runForTraced_fst ..).trans (Machine.run_withTracing _ true)
    have hoff := Machine.run_withTracing (Machine.start program script plan) false
    show (((Machine.start program script plan).withTracing true).runTraced.1.result.map
        (·, ((Machine.start program script plan).withTracing true).runTraced.2)).map Prod.fst =
      ((Machine.start program script plan).withTracing false).run.result
    rw [hon, hoff, Machine.result_withTracing, Machine.result_withTracing]
    cases (Machine.start program script plan).run.result with
    | error e => rfl
    | ok r => rfl

theorem runProgramTraced_of_tracing_eq_false :
    runProgramTraced image args script plan { settings with tracing := false } =
      (runProgram image args script plan { settings with tracing := false }).map (·, #[]) := by
  rw [runProgramTraced, runProgram, Program.load_tracing image args settings false]
  cases Program.load image args settings with
  | error e => rfl
  | ok program =>
    have hoff : ((Machine.start program script plan).withTracing false).runTraced =
        (((Machine.start program script plan).withTracing false).run, #[]) :=
      Machine.runForTraced_of_tracing_eq_false rfl _ #[]
    show ((Machine.start program script plan).withTracing false).runTraced.1.result.map
      (·, ((Machine.start program script plan).withTracing false).runTraced.2) = _
    rw [hoff]
    rfl

theorem exists_traced_of_load {program : Program}
    (h : Program.load image args { settings with tracing := true } = .ok program) :
    ∃ lines, (Machine.start program script plan).Traced lines
        (Machine.start program script plan).run ∧
      (Machine.start program script plan).runTraced =
        ((Machine.start program script plan).run, lines.toArray) ∧
      runProgramTraced image args script plan { settings with tracing := true } =
        (Machine.start program script plan).run.result.map (·, lines.toArray) := by
  have hm := Machine.settled_start h script plan
  have htracing : (Machine.start program script plan).cpu.tracing = true := by
    rw [Machine.cpu_start h script plan]
    rfl
  obtain ⟨n, hle, hn⟩ := hm.exists_finishesAt
  obtain ⟨lines, htraced, hlines⟩ :=
    hm.exists_traced htracing hn (Nat.le_succ_of_le hle) #[]
  rw [← hm.run_eq hn] at htraced hlines
  rw [Array.empty_append] at hlines
  refine ⟨lines, htraced, hlines, ?_⟩
  rw [runProgramTraced, h]
  show (Machine.start program script plan).runTraced.1.result.map
    (·, (Machine.start program script plan).runTraced.2) = _
  rw [show (Machine.start program script plan).runTraced = _ from hlines]

/-- **The trace shows what runs.** The text of a complete instruction determines its bytes, whatever
follows them, and agrees with what executing it does. A run with tracing on is the run with tracing
off, with a line for each instruction executed, in order and made before it is executed. -/
theorem trace_faithful :
    (∀ (variant : Variant) (pc : UInt16) (i j : Instruction) (xs ys : List UInt8),
      i.Heads variant xs → j.Heads variant ys →
        (disassemble variant xs pc = disassemble variant ys pc ↔
          xs.take i.length = ys.take j.length)) ∧
    (∀ (cpu : Cpu) (isTrap : UInt16 → Bool) (m : Memory) (i : Instruction),
      Instruction.decode cpu.variant (m.read cpu.registers.pc) = some i →
        i.Shown cpu.variant cpu.registers m ∧
        (cpu.isActive = true → cpu.steps < cpu.budget → isTrap cpu.registers.pc = false →
          (cpu.step isTrap m).1.registers = (i.effect cpu.variant cpu.registers m).registers)) ∧
    (∀ (image : Image) (args : List (List UInt8)) (script : List UInt8) (plan : FailurePlan)
      (settings : Settings),
      (∀ program,
        Program.load image args { settings with tracing := true } = .ok program →
          let m := Machine.start program script plan
          (∃ lines, m.Traced lines m.run ∧ m.runTraced = (m.run, lines.toArray) ∧
            runProgramTraced image args script plan { settings with tracing := true } =
              m.run.result.map (·, lines.toArray)) ∧
          (m.withTracing false).run = m.run.withTracing false) ∧
      (runProgramTraced image args script plan { settings with tracing := true }).map Prod.fst =
        runProgram image args script plan { settings with tracing := false } ∧
      runProgramTraced image args script plan { settings with tracing := false } =
        (runProgram image args script plan { settings with tracing := false }).map (·, #[])) := by
  refine ⟨fun variant pc i j xs ys hi hj => Instruction.disassemble_eq_iff hi hj,
    fun cpu isTrap m i h => ⟨Instruction.shown_of_decode h, fun hactive hbudget htrap =>
      (Cpu.step_executed hactive hbudget htrap h).1⟩,
    fun image args script plan settings => ⟨fun program hload => ?_,
      runProgramTraced_map_fst image args script plan settings,
      runProgramTraced_of_tracing_eq_false image args script plan settings⟩⟩
  exact ⟨exists_traced_of_load image args script plan settings hload,
    Machine.run_withTracing _ false⟩

/-- A program that writes a letter, skips a byte and exits: `LDA #65`, `JSR $0300`, `BNE $0208`,
`JMP $FFF9`, with `putchar` at `$0300`. -/
def skippedByte : Image :=
  { Image.raw [0xA9, 65, 0x20, 0, 3, 0xD0, 1, 0xEA, 0x4C, 0xF9, 0xFF] 0x200 0x200 .nmos with
    symbols := ⟨[("_putchar", 0x300)]⟩ }

/-- A branch at the end of memory leads to its beginning, as its text says. The trace of a program
has a line for each instruction, but none for the two routines and none for the byte skipped. -/
theorem trace_faithful_skippedByte :
    let cpu := Cpu.start .nmos (Registers.initial 0xFFFE 0xFF) 1 true
    let m := Memory.filled 0x10
    disassemble .nmos [0x10, 0x10] 0xFFFE = "bpl $0010" ∧
      disassemble .nmos [0x10, 0x10, 0xEA] 0xFFFE = disassemble .nmos [0x10, 0x10] 0xFFFE ∧
      disassemble .nmos (m.readBytes 0xFFFE 2) 0xFFFE =
        "bpl" ++ " $" ++ Hex.word (cpu.step (fun _ => false) m).1.registers.pc ∧
      ∃ program lines,
        Program.load skippedByte [] { Settings.default with tracing := true } = .ok program ∧
        (Machine.start program [] FailurePlan.none).Traced lines
          (Machine.start program [] FailurePlan.none).run ∧
        lines.toArray =
          #["0200  lda #$41       PC=$0200 A=$00 X=$00 Y=$00 S=$FF P=nv-bdIzc",
            "0202  jsr $0300      PC=$0202 A=$41 X=$00 Y=$00 S=$FF P=nv-bdIzc",
            "0205  bne $0208      PC=$0205 A=$41 X=$00 Y=$00 S=$FF P=nv-bdIzc",
            "0208  jmp $fff9      PC=$0208 A=$41 X=$00 Y=$00 S=$FF P=nv-bdIzc"] := by
  intro cpu m
  obtain ⟨htext, hshown, hrun⟩ := trace_faithful
  -- a branch that is taken: it lies in the last two bytes, and its target around the end of memory
  let i : Instruction := ⟨0x10, .bpl, .relative, 2⟩
  have hdecode : Instruction.decode cpu.variant (m.read cpu.registers.pc) = some i := by
    decide +kernel
  have hopcode : Instruction.decode .nmos 0x10 = some i := by
    decide +kernel
  have hshort : i.Heads .nmos [0x10, 0x10] := ⟨hopcode, by decide⟩
  have hlong : i.Heads .nmos [0x10, 0x10, 0xEA] := ⟨hopcode, by decide⟩
  obtain ⟨hbranch, hstep⟩ := hshown cpu (fun _ => false) m i hdecode
  have hpc := hstep rfl (by decide) rfl
  have hclear : (Registers.initial 0xFFFE 0xFF).p.get Status.negative = false := by
    decide
  have htarget : i.ShowsTarget cpu.registers.p := .inl ⟨rfl, hclear⟩
  refine ⟨by decide +kernel, (htext .nmos 0xFFFE i i _ _ hlong hshort).mpr rfl, ?_, ?_⟩
  · rw [hpc]
    exact hbranch.target_eq htarget
  · obtain ⟨program, hload, hlines⟩ : ∃ program,
        Program.load skippedByte [] { Settings.default with tracing := true } = .ok program ∧
        (Machine.start program [] FailurePlan.none).runTraced.2 =
          #["0200  lda #$41       PC=$0200 A=$00 X=$00 Y=$00 S=$FF P=nv-bdIzc",
            "0202  jsr $0300      PC=$0202 A=$41 X=$00 Y=$00 S=$FF P=nv-bdIzc",
            "0205  bne $0208      PC=$0205 A=$41 X=$00 Y=$00 S=$FF P=nv-bdIzc",
            "0208  jmp $fff9      PC=$0208 A=$41 X=$00 Y=$00 S=$FF P=nv-bdIzc"] :=
      ⟨_, rfl, by decide +kernel⟩
    obtain ⟨lines, htraced, hcollected, -⟩ :=
      ((hrun skippedByte [] [] FailurePlan.none Settings.default).1 program hload).1
    rw [hcollected] at hlines
    exact ⟨program, lines, hload, htraced, hlines⟩

end Bench65
