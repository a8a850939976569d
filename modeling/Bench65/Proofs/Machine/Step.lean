import Bench65.Machine
import Bench65.Proofs.Call

/-!
# What one step can do

`Machine.Transition` lists the seven ways in which a machine that is ready or running can go on,
each with the checks that lead there, in the order in which they are made: the budget, the routine
at the program counter, the opcode. `step_transition` says that there are no others. A machine whose
run is over stays as it is, except that its counters are brought up to date (`step_of_isFinished`).

What every step preserves is read off the seven cases.
-/

namespace Bench65

namespace Cpu

theorem isActive_iff (cpu : Cpu) :
    cpu.isActive = true ↔ cpu.state.isFinished = false ∧ cpu.trappedAt? = none := by
  rw [isActive, trappedAt?]
  cases cpu.state with
  | ready => exact ⟨fun _ => ⟨rfl, rfl⟩, fun _ => rfl⟩
  | running => exact ⟨fun _ => ⟨rfl, rfl⟩, fun _ => rfl⟩
  | trapped a => exact ⟨fun h => (by cases h), fun h => (by cases h.2)⟩
  | halted status => exact ⟨fun h => (by cases h), fun h => (by cases h.1)⟩
  | faulted fault => exact ⟨fun h => (by cases h), fun h => (by cases h.1)⟩
  | aborted => exact ⟨fun h => (by cases h), fun h => (by cases h.1)⟩

theorem isActive_of_isFinished {cpu : Cpu} (h : cpu.state.isFinished = true) :
    cpu.isActive = false := by
  rw [Bool.eq_false_iff]
  intro hactive
  rw [((isActive_iff cpu).mp hactive).1] at h
  cases h

theorem trappedAt?_of_isFinished {cpu : Cpu} (h : cpu.state.isFinished = true) :
    cpu.trappedAt? = none := by
  rw [trappedAt?]
  cases hstate : cpu.state with
  | trapped a =>
    rw [hstate] at h
    cases h
  | _ => rfl

end Cpu

namespace Machine

variable {m : Machine}

/-! ### Where a step can lead -/

/-- The machine stopped by a fault, nothing else changed. -/
def stopped (m : Machine) (fault : Fault) : Machine :=
  { m with cpu := m.cpu.stop fault }.syncCounters

/-- The machine after an instruction. -/
def afterInstruction (m : Machine) (i : Instruction) : Machine :=
  let effect := i.effect m.cpu.variant m.cpu.registers m.memory
  { m with
    cpu := m.cpu.after (.executed i effect)
    memory := m.memory.apply effect.stores }.syncCounters

/-- The call that a routine at the program counter receives, counted. -/
def trapCall (m : Machine) (routine : Routine) : Call :=
  { m.call with
    step := m.cpu.steps + 1
    counters := m.counters.recordCall routine }

/-- The machine in some state after a step that answered a call. -/
def afterAnswer (m : Machine) (c : Call) (state : RunState) : Machine :=
  { m with
    cpu := { m.cpu with registers := c.registers, state, steps := m.cpu.steps + 1 }
    memory := c.memory
    console := c.console
    counters := c.counters }.syncCounters

/-- A step of a machine that is ready or running. -/
inductive Transition (m : Machine) : Machine → Prop
  /-- The budget is used up. -/
  | timeout (hbudget : m.cpu.budget ≤ m.cpu.steps) :
      Transition m (m.stopped (.timeout m.cpu.steps))
  /-- There is no instruction at the program counter. -/
  | illegal (hbudget : m.cpu.steps < m.cpu.budget)
      (hlookup : m.registry.lookup m.cpu.registers.pc = none)
      (hdecode : Instruction.decode m.cpu.variant (m.memory.read m.cpu.registers.pc) = none) :
      Transition m (m.stopped
        (.illegalInstruction m.cpu.registers.pc (m.memory.read m.cpu.registers.pc)))
  /-- An instruction is executed. -/
  | executed (i : Instruction) (hbudget : m.cpu.steps < m.cpu.budget)
      (hlookup : m.registry.lookup m.cpu.registers.pc = none)
      (hdecode : Instruction.decode m.cpu.variant (m.memory.read m.cpu.registers.pc) = some i) :
      Transition m (m.afterInstruction i)
  /-- A routine returns to its caller. -/
  | returned (routine : Routine) (c : Call) (hbudget : m.cpu.steps < m.cpu.budget)
      (hlookup : m.registry.lookup m.cpu.registers.pc = some routine)
      (hperform : routine.perform (m.trapCall routine) = (.ok .goBack, c)) :
      Transition m (m.afterAnswer
        { c with registers := c.registers.returnFromSubroutine c.memory } .running)
  /-- A routine ends the run. -/
  | exited (routine : Routine) (c : Call) (status : Int) (hbudget : m.cpu.steps < m.cpu.budget)
      (hlookup : m.registry.lookup m.cpu.registers.pc = some routine)
      (hperform : routine.perform (m.trapCall routine) = (.ok (.exit status), c)) :
      Transition m (m.afterAnswer c (.halted status))
  /-- A routine finds its contract violated. -/
  | refused (routine : Routine) (c : Call) (violation : Violation)
      (hbudget : m.cpu.steps < m.cpu.budget)
      (hlookup : m.registry.lookup m.cpu.registers.pc = some routine)
      (hperform : routine.perform (m.trapCall routine) = (.error (.violation violation), c)) :
      Transition m (m.afterAnswer c
        (.faulted (.contractViolation m.cpu.registers.pc violation)))
  /-- A routine needs a larger buffer than there can be. -/
  | aborted (routine : Routine) (c : Call) (hbudget : m.cpu.steps < m.cpu.budget)
      (hlookup : m.registry.lookup m.cpu.registers.pc = some routine)
      (hperform : routine.perform (m.trapCall routine) = (.error .abort, c)) :
      Transition m (m.afterAnswer c .aborted)

/-! ### Steps -/

theorem event_eq (hactive : m.cpu.isActive = true) :
    m.event =
      if m.cpu.budget ≤ m.cpu.steps then .timeout
      else if (m.registry.lookup m.cpu.registers.pc).isSome then .trap m.cpu.registers.pc
      else
        match Instruction.decode m.cpu.variant (m.memory.read m.cpu.registers.pc) with
        | none => .illegal m.cpu.registers.pc (m.memory.read m.cpu.registers.pc)
        | some i => .executed i (i.effect m.cpu.variant m.cpu.registers m.memory) := by
  rw [event, Cpu.event, hactive]
  rfl

theorem event_of_budget_le (hactive : m.cpu.isActive = true)
    (hbudget : m.cpu.budget ≤ m.cpu.steps) : m.event = .timeout := by
  rw [event_eq hactive, if_pos hbudget]

theorem event_of_lookup {routine : Routine} (hactive : m.cpu.isActive = true)
    (hbudget : m.cpu.steps < m.cpu.budget)
    (hlookup : m.registry.lookup m.cpu.registers.pc = some routine) :
    m.event = .trap m.cpu.registers.pc := by
  rw [event_eq hactive, if_neg (Nat.not_le.mpr hbudget), hlookup, if_pos Option.isSome_some]

theorem event_of_decode_eq_none (hactive : m.cpu.isActive = true)
    (hbudget : m.cpu.steps < m.cpu.budget)
    (hlookup : m.registry.lookup m.cpu.registers.pc = none)
    (hdecode : Instruction.decode m.cpu.variant (m.memory.read m.cpu.registers.pc) = none) :
    m.event = .illegal m.cpu.registers.pc (m.memory.read m.cpu.registers.pc) := by
  rw [event_eq hactive, if_neg (Nat.not_le.mpr hbudget), hlookup, if_neg (by decide), hdecode]

theorem event_of_decode {i : Instruction} (hactive : m.cpu.isActive = true)
    (hbudget : m.cpu.steps < m.cpu.budget)
    (hlookup : m.registry.lookup m.cpu.registers.pc = none)
    (hdecode : Instruction.decode m.cpu.variant (m.memory.read m.cpu.registers.pc) = some i) :
    m.event = .executed i (i.effect m.cpu.variant m.cpu.registers m.memory) := by
  rw [event_eq hactive, if_neg (Nat.not_le.mpr hbudget), hlookup, if_neg (by decide), hdecode]

theorem step_of_decode {i : Instruction} (hactive : m.cpu.isActive = true)
    (hbudget : m.cpu.steps < m.cpu.budget)
    (hlookup : m.registry.lookup m.cpu.registers.pc = none)
    (hdecode : Instruction.decode m.cpu.variant (m.memory.read m.cpu.registers.pc) = some i) :
    m.step = m.afterInstruction i := by
  rw [step, event_of_decode hactive hbudget hlookup hdecode]
  rfl

theorem answerTrap_of_lookup {a : UInt16} {routine : Routine}
    (hlookup : m.registry.lookup a = some routine) :
    m.answerTrap a =
      match routine.answer m.call with
      | (.ok .goBack, c) =>
        { m.afterCall c with cpu := (m.afterCall c).cpu.returnFromSubroutine c.memory }
      | (.ok (.exit status), c) => { m.afterCall c with cpu := (m.afterCall c).cpu.halt status }
      | (.error (.violation violation), c) =>
        { m.afterCall c with
          cpu := (m.afterCall c).cpu.stop (.contractViolation a violation) }
      | (.error .abort, c) => { m.afterCall c with cpu := (m.afterCall c).cpu.abort } := by
  rw [answerTrap, hlookup]
  dsimp only
  rcases routine.answer m.call with ⟨(violation | -) | (- | status), c⟩
  · rfl
  · rfl
  · rfl
  · rfl

/-- The machine stopped at the trap that its program counter is at. -/
def atTrap (m : Machine) : Machine :=
  { m with cpu := m.cpu.after (.trap m.cpu.registers.pc) }

theorem answer_call_atTrap (m : Machine) (routine : Routine) :
    routine.answer m.atTrap.call = routine.perform (m.trapCall routine) := by
  rw [Routine.answer]
  rfl

/-- Answering the trap at the program counter is performing the routine there. -/
theorem afterEvent_trap {routine : Routine}
    (hlookup : m.registry.lookup m.cpu.registers.pc = some routine) :
    m.afterEvent (.trap m.cpu.registers.pc) =
      match routine.perform (m.trapCall routine) with
      | (.ok .goBack, c) => m.afterAnswer
          { c with registers := c.registers.returnFromSubroutine c.memory } .running
      | (.ok (.exit status), c) => m.afterAnswer c (.halted status)
      | (.error (.violation violation), c) => m.afterAnswer c
          (.faulted (.contractViolation m.cpu.registers.pc violation))
      | (.error .abort, c) => m.afterAnswer c .aborted := by
  -- the step of the trap is counted before the routine sees the machine
  have htrap : m.afterEvent (.trap m.cpu.registers.pc) =
      (m.atTrap.answerTrap m.cpu.registers.pc).syncCounters := rfl
  have hlookup' : m.atTrap.registry.lookup m.cpu.registers.pc = some routine := hlookup
  rw [htrap, answerTrap_of_lookup hlookup', answer_call_atTrap]
  rcases routine.perform (m.trapCall routine) with ⟨(violation | -) | (- | status), c⟩
  · rfl
  · rfl
  · rfl
  · rfl

/-- A machine that is ready or running goes on in one of the seven ways. -/
theorem step_transition (hactive : m.cpu.isActive = true) : Transition m m.step := by
  rw [step, event_eq hactive]
  by_cases hbudget : m.cpu.budget ≤ m.cpu.steps
  · rw [if_pos hbudget]
    exact .timeout hbudget
  have hlt := Nat.not_le.mp hbudget
  rw [if_neg hbudget]
  cases hlookup : m.registry.lookup m.cpu.registers.pc with
  | some routine =>
    rw [if_pos (Option.isSome_some), afterEvent_trap hlookup]
    rcases hperform : routine.perform (m.trapCall routine) with
      ⟨(violation | -) | (- | status), c⟩
    · exact .refused routine c violation hlt hlookup hperform
    · exact .aborted routine c hlt hlookup hperform
    · exact .returned routine c hlt hlookup hperform
    · exact .exited routine c status hlt hlookup hperform
  | none =>
    rw [if_neg (by decide)]
    cases hdecode : Instruction.decode m.cpu.variant (m.memory.read m.cpu.registers.pc) with
    | none => exact .illegal hlt hlookup hdecode
    | some i => exact .executed i hlt hlookup hdecode

theorem event_of_isFinished (h : m.isFinished = true) : m.event = .idle := by
  rw [event, Cpu.event, Cpu.isActive_of_isFinished h]
  rfl

/-- A machine whose run is over does nothing. -/
theorem step_of_isFinished (h : m.isFinished = true) : m.step = m.syncCounters := by
  -- the processor is idle, and no trap is left to answer
  have htrapped : ({ m with cpu := m.cpu.after .idle } : Machine).cpu.trappedAt? = none :=
    Cpu.trappedAt?_of_isFinished h
  rw [step, event_of_isFinished h, afterEvent]
  dsimp only
  rw [htrapped]
  rfl

/-! ### What every step does -/

variable {m' : Machine}

/-- The parts of a machine that no step changes. -/
structure Keeps (m m' : Machine) : Prop where
  budget_eq : m'.cpu.budget = m.cpu.budget
  tracing_eq : m'.cpu.tracing = m.cpu.tracing
  variant_eq : m'.cpu.variant = m.cpu.variant
  registry_eq : m'.registry = m.registry
  arguments_eq : m'.arguments = m.arguments
  stack_eq : m'.stack = m.stack
  layout_eq : m'.layout = m.layout

theorem Keeps.refl (m : Machine) : m.Keeps m :=
  ⟨rfl, rfl, rfl, rfl, rfl, rfl, rfl⟩

theorem Keeps.trans {m'' : Machine} (h : m.Keeps m') (h' : m'.Keeps m'') : m.Keeps m'' where
  budget_eq := h'.budget_eq.trans h.budget_eq
  tracing_eq := h'.tracing_eq.trans h.tracing_eq
  variant_eq := h'.variant_eq.trans h.variant_eq
  registry_eq := h'.registry_eq.trans h.registry_eq
  arguments_eq := h'.arguments_eq.trans h.arguments_eq
  stack_eq := h'.stack_eq.trans h.stack_eq
  layout_eq := h'.layout_eq.trans h.layout_eq

/-- However a routine answers, it has used the console as a call may. -/
theorem uses_of_perform {routine : Routine} {answer : Except Call.Failure Action} {c : Call}
    (hperform : routine.perform (m.trapCall routine) = (answer, c)) :
    (m.trapCall routine).Uses c := by
  have hanswer := routine.perform_answered (m.trapCall routine)
  rw [hperform] at hanswer
  cases hanswer with
  | returned w hregisters huses => exact huses
  | exited hroutine => exact .silent rfl rfl
  | refused reason hregisters hconsole hcounters => exact .silent hconsole hcounters
  | aborted hroutine hregisters hconsole hcounters => exact .silent hconsole hcounters

namespace Transition

theorem keeps (h : Transition m m') : m.Keeps m' := by
  cases h with
  | _ => exact ⟨rfl, rfl, rfl, rfl, rfl, rfl, rfl⟩

theorem syncCounters_eq (h : Transition m m') : m'.syncCounters = m' := by
  cases h with
  | _ => rfl

theorem trappedAt?_eq_none (h : Transition m m') : m'.cpu.trappedAt? = none := by
  cases h with
  | _ => rfl

/-- A step is counted, or it only ends the run with a fault. -/
theorem steps (h : Transition m m') :
    m.cpu.steps < m.cpu.budget ∧ m'.cpu.steps = m.cpu.steps + 1 ∨
      ∃ fault, m' = m.stopped fault := by
  cases h with
  | timeout hbudget => exact .inr ⟨_, rfl⟩
  | illegal hbudget hlookup hdecode => exact .inr ⟨_, rfl⟩
  | executed i hbudget hlookup hdecode => exact .inl ⟨hbudget, rfl⟩
  | returned routine c hbudget hlookup hperform => exact .inl ⟨hbudget, rfl⟩
  | exited routine c status hbudget hlookup hperform => exact .inl ⟨hbudget, rfl⟩
  | refused routine c violation hbudget hlookup hperform => exact .inl ⟨hbudget, rfl⟩
  | aborted routine c hbudget hlookup hperform => exact .inl ⟨hbudget, rfl⟩

/-- What a step writes and reads is stamped with its number. -/
theorem transcript (h : Transition m m') :
    m.console.transcript.Extends (m.cpu.steps + 1) m'.console.transcript := by
  cases h with
  | timeout hbudget => exact .refl _ _
  | illegal hbudget hlookup hdecode => exact .refl _ _
  | executed i hbudget hlookup hdecode => exact .refl _ _
  -- the routine's call carries the number of the step that answers it
  | returned routine c hbudget hlookup hperform => exact (uses_of_perform hperform).extends
  | exited routine c status hbudget hlookup hperform => exact (uses_of_perform hperform).extends
  | refused routine c violation hbudget hlookup hperform =>
    exact (uses_of_perform hperform).extends
  | aborted routine c hbudget hlookup hperform => exact (uses_of_perform hperform).extends

/-! ### How a run ends -/

/-- Only a used up budget times out. -/
theorem of_timeout {steps : Nat} (h : Transition m m')
    (hstate : m'.cpu.state = .faulted (.timeout steps)) :
    m.cpu.budget ≤ m.cpu.steps ∧ steps = m.cpu.steps ∧ m' = m.stopped (.timeout steps) := by
  cases h with
  | timeout hbudget =>
    cases hstate
    exact ⟨hbudget, rfl, rfl⟩
  | _ => cases hstate

/-- Only a byte that is no instruction, where no routine is, is reported as one. -/
theorem of_illegalInstruction {a : UInt16} {opcode : UInt8} (h : Transition m m')
    (hstate : m'.cpu.state = .faulted (.illegalInstruction a opcode)) :
    m.cpu.registers.pc = a ∧ m.memory.read a = opcode ∧
      Instruction.decode m.cpu.variant opcode = none ∧ m.registry.lookup a = none ∧
      m.cpu.steps < m.cpu.budget ∧ m' = m.stopped (.illegalInstruction a opcode) := by
  cases h with
  | illegal hbudget hlookup hdecode =>
    cases hstate
    exact ⟨rfl, rfl, hdecode, hlookup, hbudget, rfl⟩
  | _ => cases hstate

end Transition

end Machine

/-! ### Other limits -/

section Limits

variable (budget : Nat → Nat) (tracing : Bool → Bool)

/-- The processor with another budget and with tracing on or off. -/
def Cpu.mapLimits (cpu : Cpu) : Cpu :=
  { cpu with budget := budget cpu.budget, tracing := tracing cpu.tracing }

namespace Cpu

theorem resume_mapLimits (cpu : Cpu) :
    (cpu.mapLimits budget tracing).resume = cpu.resume.mapLimits budget tracing := by
  obtain ⟨registers, state, steps, cycles, _, _, variant⟩ := cpu
  cases state with
  | _ => rfl

theorem after_mapLimits (cpu : Cpu) (event : Event) :
    (cpu.mapLimits budget tracing).after event = (cpu.after event).mapLimits budget tracing := by
  cases event with
  | _ => rfl

end Cpu

namespace Machine

/-- The machine with another budget and with tracing on or off. -/
def mapLimits (m : Machine) : Machine :=
  { m with cpu := m.cpu.mapLimits budget tracing }

theorem answerTrap_mapLimits (m : Machine) (a : UInt16) :
    (m.mapLimits budget tracing).answerTrap a = (m.answerTrap a).mapLimits budget tracing := by
  have hregistry : (m.mapLimits budget tracing).registry = m.registry := rfl
  have hcall : (m.mapLimits budget tracing).call = m.call := rfl
  have hresume := Cpu.resume_mapLimits budget tracing
  rw [answerTrap, answerTrap, hregistry, hcall]
  cases m.registry.lookup a with
  | none => exact congrArg (fun cpu => { m with cpu }) (hresume m.cpu)
  | some routine =>
    dsimp only
    rcases routine.answer m.call with ⟨(violation | -) | (- | status), c⟩
    · rfl
    · rfl
    · exact congrArg (fun cpu => { m.afterCall c with cpu })
        (hresume { m.cpu with registers := c.registers.returnFromSubroutine c.memory })
    · rfl

/-- The limits play a part only in the choice of the event. -/
theorem afterEvent_mapLimits (m : Machine) (event : Cpu.Event) :
    (m.mapLimits budget tracing).afterEvent event =
      (m.afterEvent event).mapLimits budget tracing := by
  have hafter := m.cpu.after_mapLimits budget tracing event
  have hcpu : { m.mapLimits budget tracing with
        cpu := (m.mapLimits budget tracing).cpu.after event
        memory := m.memory.apply event.stores } =
      { m with cpu := m.cpu.after event, memory := m.memory.apply event.stores }.mapLimits budget
        tracing :=
    congrArg (fun cpu => { m with cpu, memory := m.memory.apply event.stores }) hafter
  -- whether the processor is trapped does not depend on its limits, nor does the answer
  have htrapped : ((m.mapLimits budget tracing).cpu.after event).trappedAt? =
      (m.cpu.after event).trappedAt? := (congrArg Cpu.trappedAt? hafter).trans rfl
  have hmemory : (m.mapLimits budget tracing).memory = m.memory := rfl
  unfold afterEvent
  dsimp only
  rw [htrapped, hmemory, hcpu]
  cases (m.cpu.after event).trappedAt? with
  | none => rfl
  | some a => exact congrArg syncCounters (answerTrap_mapLimits budget tracing _ a)
end Machine

end Limits

end Bench65
