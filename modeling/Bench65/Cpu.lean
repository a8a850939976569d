import Bench65.Fault
import Bench65.Disassembly
import Bench65.Text.Column
import Bench65.Cpu.Execution

/-!
# The processor

A processor is its registers, its run state and its counters. It owns no memory: a step looks at
the memory and at the set of trapped addresses and yields an event (`Cpu.event`), from which the
processor afterwards (`Cpu.after`) and the bytes stored (`Cpu.Event.stores`) follow.

A step first checks the budget, then whether the program counter is trapped, and only then fetches
an instruction. Trapping counts as a step; running out of budget or meeting an illegal opcode
does not, and ends the run.
-/

namespace Bench65

/-- The run state of a processor. -/
inductive RunState where
  /-- Loaded, nothing executed yet. -/
  | ready
  /-- Executing. -/
  | running
  /-- Stopped at a trapped address until the routine there has been answered. -/
  | trapped (address : UInt16)
  /-- Ended by an exit call. -/
  | halted (status : Int)
  /-- Ended by a fault. -/
  | faulted (fault : Fault)
  /-- Ended without a result, because a routine needed a larger buffer than there can be. -/
  | aborted
  deriving DecidableEq, Repr

namespace RunState

/-- Whether the run is over. -/
def isFinished : RunState → Bool
  | halted _ | faulted _ | aborted => true
  | _ => false

/-- The state with the names of its parts, for state dumps. -/
def dump : RunState → String
  | ready => "Ready"
  | running => "Running"
  | trapped a => s!"Trapped({a})"
  | halted status => s!"Halted({status})"
  | faulted fault => s!"Faulted({fault.dump})"
  | aborted => "Aborted"

end RunState

/-- A processor. -/
structure Cpu where
  /-- The registers. -/
  registers : Registers
  /-- The run state. -/
  state : RunState
  /-- Steps taken: instructions executed and traps entered. -/
  steps : Nat
  /-- Cycles consumed by the instructions executed. -/
  cycles : Nat
  /-- The number of steps after which the run times out. -/
  budget : Nat
  /-- Whether a line is traced for every instruction. -/
  tracing : Bool
  /-- Which processor this is. -/
  variant : Variant
  deriving DecidableEq, Repr

namespace Cpu

/-- A processor about to execute its first instruction. -/
def start (variant : Variant) (registers : Registers) (budget : Nat) (tracing : Bool) : Cpu :=
  ⟨registers, .ready, 0, 0, budget, tracing, variant⟩

/-! ### The run state -/

/-- The address of the routine waiting to be answered. -/
def trappedAt? (cpu : Cpu) : Option UInt16 :=
  match cpu.state with
  | .trapped a => some a
  | _ => none

/-- The exit status, once the program has exited. -/
def exitStatus? (cpu : Cpu) : Option Int :=
  match cpu.state with
  | .halted status => some status
  | _ => none

/-- The fault that ended the run, if one did. -/
def fault? (cpu : Cpu) : Option Fault :=
  match cpu.state with
  | .faulted fault => some fault
  | _ => none

/-- Ends the run with an exit status. -/
def halt (cpu : Cpu) (status : Int) : Cpu :=
  { cpu with state := .halted status }

/-- Ends the run with a fault. -/
def stop (cpu : Cpu) (fault : Fault) : Cpu :=
  { cpu with state := .faulted fault }

/-- Ends the run without a result. -/
def abort (cpu : Cpu) : Cpu :=
  { cpu with state := .aborted }

/-- Continues after a trap; a processor that is not trapped stays as it is. -/
def resume (cpu : Cpu) : Cpu :=
  match cpu.state with
  | .trapped _ => { cpu with state := .running }
  | _ => cpu

/-- Returns from the trapped routine to its caller. -/
def returnFromSubroutine (cpu : Cpu) (m : Memory) : Cpu :=
  { cpu with registers := cpu.registers.returnFromSubroutine m }.resume

/-- Registers, counters and run state in one line. -/
def dump (cpu : Cpu) : String :=
  s!"{cpu.registers.display} steps={cpu.steps} cycles={cpu.cycles} state={cpu.state.dump}"

/-! ### Steps -/

/-- What a step comes to. -/
inductive Event where
  /-- The processor is stopped and does nothing. -/
  | idle
  /-- The budget is used up. -/
  | timeout
  /-- The program counter is trapped. -/
  | trap (address : UInt16)
  /-- The byte at the program counter is no instruction. -/
  | illegal (address : UInt16) (opcode : UInt8)
  /-- An instruction is executed. -/
  | executed (instruction : Instruction) (effect : Effect)

/-- Whether a step would do anything. -/
def isActive (cpu : Cpu) : Bool :=
  match cpu.state with
  | .ready | .running => true
  | _ => false

/-- What the next step comes to. -/
def event (cpu : Cpu) (isTrap : UInt16 → Bool) (m : Memory) : Event :=
  let pc := cpu.registers.pc
  if !cpu.isActive then .idle
  -- without budget not even a routine is entered
  else if cpu.budget ≤ cpu.steps then .timeout
  -- at the address of a routine the byte in memory does not matter
  else if isTrap pc then .trap pc
  else
    let opcode := m.read pc
    match Instruction.decode cpu.variant opcode with
    | none => .illegal pc opcode
    | some i => .executed i (i.effect cpu.variant cpu.registers m)

/-- The processor after an event. -/
def after (cpu : Cpu) : Event → Cpu
  | .idle => cpu
  | .timeout => cpu.stop (.timeout cpu.steps)
  | .trap a => { cpu with state := .trapped a, steps := cpu.steps + 1 }
  | .illegal a opcode => cpu.stop (.illegalInstruction a opcode)
  | .executed i e =>
    { cpu with
      registers := e.registers
      state := .running
      steps := cpu.steps + 1
      cycles := cpu.cycles + i.cycles + e.extraCycles }

/-- The bytes an event stores. -/
def Event.stores : Event → List Store
  | .executed _ e => e.stores
  | _ => []

/-- One step of a processor over a memory. -/
def step (cpu : Cpu) (isTrap : UInt16 → Bool) (m : Memory) : Cpu × Memory :=
  let event := cpu.event isTrap m
  (cpu.after event, m.apply event.stores)

/-- The trace line of an instruction about to be executed: its address, its text and the
registers before it. -/
def traceLine (cpu : Cpu) (i : Instruction) (m : Memory) : String :=
  let pc := cpu.registers.pc
  let text := disassemble cpu.variant (m.readBytes pc i.length) pc
  s!"{Hex.wordUpper pc}  {column 14 text} {cpu.registers.display}"

/-- The line traced for an event, if any: tracing is on and an instruction is executed. -/
def trace? (cpu : Cpu) (m : Memory) : Event → Option String
  | .executed i _ => if cpu.tracing then some (cpu.traceLine i m) else none
  | _ => none

end Cpu

end Bench65
