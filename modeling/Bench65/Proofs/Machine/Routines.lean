import Bench65.Proofs.Machine.Run
import Bench65.Proofs.Registry

/-!
# A trap finds its routine

The registry of a run is the one built when the program was loaded, and it stops the processor at no
other addresses than those for which it has a routine (`isTrap_iff`). Which these are follows from
the labels and the settings alone (`registry_specification`).
-/

namespace Bench65

theorem Registry.isTrap_iff {r : Registry} {a : UInt16} :
    r.isTrap a = true ↔ ∃ routine, r.lookup a = some routine :=
  Option.isSome_iff_exists

theorem Cpu.isTrap_of_event {cpu : Cpu} {isTrap : UInt16 → Bool} {memory : Memory} {a : UInt16}
    (h : cpu.event isTrap memory = .trap a) : isTrap a = true := by
  unfold event at h
  dsimp only at h
  split_ifs at h with hactive hbudget htrap
  · cases h
    exact htrap
  · split at h <;> cases h

namespace Machine

variable {m : Machine} {a : UInt16}

/-- An event that leaves the processor trapped is a trap, unless it was trapped before. -/
theorem event_of_trappedAt? (hm : m.cpu.trappedAt? = none)
    (h : (m.cpu.after m.event).trappedAt? = some a) : m.event = .trap a := by
  cases hevent : m.event with
  | trap b =>
    rw [hevent] at h
    cases h
    rfl
  | idle =>
    rw [hevent, Cpu.after, hm] at h
    cases h
  | _ =>
    rw [hevent] at h
    cases h

theorem Settled.exists_routine (h : m.Settled)
    (htrapped : (m.cpu.after m.event).trappedAt? = some a) :
    ∃ routine, m.registry.lookup a = some routine := by
  have hevent := event_of_trappedAt? h.trappedAt?_eq_none htrapped
  exact Registry.isTrap_iff.mp (Cpu.isTrap_of_event hevent)

theorem registry_iterate {image : Image} {args : List (List UInt8)} {settings : Settings}
    {program : Program} (h : Program.load image args settings = .ok program) (script : List UInt8)
    (plan : FailurePlan) (n : Nat) :
    Program.buildRegistry image.symbols settings =
      .ok (step^[n] (start program script plan)).registry := by
  obtain ⟨_, _, -, -, hregistry, -⟩ := Program.load_eq_ok h
  rw [hregistry, ((settled_start h script plan).keeps_iterate n).registry_eq]
  rfl

/-- **Which routines are answered, and that a trap finds one.** Building a registry fails, with a
conflict, exactly if two routines that the settings ask for clash. Otherwise the registry answers
the hooks, if they are asked for, and the library routines at their labels, if these are; other
labels do not matter. It traps where it answers, so that in every run of a loaded program a trapped
processor finds a routine.

However calls to register routines follow each other, an address keeps its first routine. A call
fails exactly if another routine is answered at its address, and then changes nothing; nor does one
that repeats what is there. -/
theorem registry_specification (symbols : Symbols) (settings : Settings) :
    ((∃ a first second,
        Program.buildRegistry symbols settings = .error (.routineConflict a first second)) ↔
      Program.Clash symbols settings) ∧
    (¬ Program.Clash symbols settings →
      ∃ r, Program.buildRegistry symbols settings = .ok r ∧
        (∀ a routine, r.lookup a = some routine ↔
          settings.hooks = true ∧ (a, routine) ∈ Routine.hooks ∨
            settings.library = true ∧ ∃ name, Program.Labels symbols name a routine) ∧
        ∀ a, r.isTrap a = true ↔ ∃ routine, r.lookup a = some routine) ∧
    Program.buildRegistry (Program.libraryLabels symbols) settings =
      Program.buildRegistry symbols settings ∧
    (∀ (image : Image) (args : List (List UInt8)) (program : Program),
      image.symbols = symbols → Program.load image args settings = .ok program →
        ∀ (script : List UInt8) (plan : FailurePlan) (n : Nat),
          let m := step^[n] (start program script plan)
          Program.buildRegistry symbols settings = .ok m.registry ∧
            ∀ a, (m.cpu.after m.event).trappedAt? = some a →
              ∃ routine, m.registry.lookup a = some routine) ∧
    ∀ (r : Registry) (calls : List (UInt16 × Routine)),
      (∀ a, (r.attemptAll calls).lookup a = (r.lookup a).or (calls.lookup a)) ∧
      (∀ more a routine, (r.attemptAll calls).lookup a = some routine →
        (r.attemptAll (calls ++ more)).lookup a = some routine) ∧
      ∀ a routine,
        (∀ e left, (Registry.register a routine).run (r.attemptAll calls) = .error e left ↔
          (∃ first, (r.attemptAll calls).lookup a = some first ∧ first ≠ routine ∧
            e = .routineConflict a first routine) ∧ left = r.attemptAll calls) ∧
        (r.attemptAll (calls ++ [(a, routine)]) = r.attemptAll calls ↔
          ∃ first, (r.attemptAll calls).lookup a = some first) := by
  refine ⟨Program.buildRegistry_error_iff, fun hno => ?_,
    Program.buildRegistry_libraryLabels symbols settings,
    fun image args program himage hload script plan n => ?_, fun r calls =>
      ⟨Registry.lookup_attemptAll r calls, fun more a routine hfound => ?_, fun a routine =>
        ⟨fun e left => Registry.run_register_eq_error_iff, ?_⟩⟩⟩
  · obtain ⟨r, hr⟩ := Program.buildRegistry_ok_iff.mpr hno
    exact ⟨r, hr, fun a routine => Program.lookup_of_buildRegistry hr, fun a => Registry.isTrap_iff⟩
  · -- no step changes the registry, so a run has the one it was loaded with
    subst himage
    exact ⟨registry_iterate hload script plan n, fun a htrapped =>
      ((settled_start hload script plan).iterate n).exists_routine htrapped⟩
  · rw [Registry.attemptAll_append, Registry.lookup_attemptAll, hfound, Option.some_or]
  · rw [Registry.attemptAll_append]
    exact Registry.attempt_eq_self_iff

/-- A program that calls `putchar`, which has a label at `$0300`: `JSR $0300`. -/
def calledLetter : Image :=
  { Image.raw [0x20, 0, 3] 0x200 0x200 .nmos with
    symbols := ⟨[("_main", 0x200), ("_putchar", 0x300)]⟩ }

/-- The call of the program finds its routine. Two labels on one address clash, and so does a label
on a hook, even if both are there to end the program; of two routines for one address the first
stays, as does the registry when the second is refused. -/
theorem registry_specification_calledLetter :
    (∃ program, Program.load calledLetter [] Settings.default = .ok program ∧
      ¬ Program.Clash calledLetter.symbols Settings.default ∧
      let m := step^[1] (start program [] FailurePlan.none)
      (m.cpu.after m.event).trappedAt? = some 0x300 ∧
        ∃ routine, m.registry.lookup 0x300 = some routine) ∧
    (∃ r, Program.buildRegistry calledLetter.symbols Settings.default = .ok r ∧
      ∀ a, r.isTrap a = true ↔ ∃ routine, r.lookup a = some routine) ∧
    Program.Clash ⟨[("_exit", 0xFFF9)]⟩ Settings.default ∧
    (Registry.empty.attemptAll [(0xE000, .printf), (0xE000, .puts)]).lookup 0xE000 =
      some .printf ∧
    let r := Registry.empty.attemptAll [(0xE000, .printf)]
    (Registry.register 0xE000 .puts).run r = .error (.routineConflict 0xE000 .printf .puts) r := by
  obtain ⟨herror, hok, -, hrun, -⟩ :=
    registry_specification calledLetter.symbols Settings.default
  obtain ⟨program, hload, htrapped⟩ : ∃ program,
      Program.load calledLetter [] Settings.default = .ok program ∧
        let m := step^[1] (start program [] FailurePlan.none)
        (m.cpu.after m.event).trappedAt? = some 0x300 := ⟨_, rfl, by decide +kernel⟩
  have hno : ¬ Program.Clash calledLetter.symbols Settings.default := by
    intro hclash
    obtain ⟨a, first, second, h⟩ := herror.mpr hclash
    cases h
  obtain ⟨r, hr, -, htrap⟩ := hok hno
  have hclash := (registry_specification ⟨[("_exit", 0xFFF9)]⟩ Settings.default).1.mp
    ⟨0xFFF9, .hostExit, .exit, rfl⟩
  have hkeeps := (registry_specification Symbols.empty Settings.default).2.2.2.2 Registry.empty
    [(0xE000, .printf)]
  exact ⟨⟨program, hload, hno, htrapped,
      (hrun calledLetter [] program rfl hload [] FailurePlan.none 1).2 _ htrapped⟩,
    ⟨r, hr, htrap⟩, hclash, hkeeps.2.1 [(0xE000, .puts)] 0xE000 .printf (by decide),
    ((hkeeps.2.2 0xE000 .puts).1 _ _).mpr ⟨⟨.printf, by decide, by decide, rfl⟩, rfl⟩⟩

end Machine

end Bench65
