import Bench65.Call.Answer
import Bench65.Program

/-!
# The machine

A machine is a processor with its memory, console, routines and counters. Its step is a step of the
processor, followed, if that ended in a trap, by the answer of the trapped routine: the machine
then returns to the caller, ends the run, or reports the violated contract. A routine that asks for
a larger buffer than there can be ends the run without a result (`RunFailure.aborted`).

A run is the repetition of steps until the processor has finished. Every step of an unfinished
machine counts against the budget or finishes it, so the budget bounds the run.
-/

namespace Bench65

/-- A machine. -/
structure Machine where
  /-- The processor. -/
  cpu : Cpu
  /-- The memory. -/
  memory : Memory
  /-- The console. -/
  console : Console
  /-- The counters. -/
  counters : Counters
  /-- The routines answered. -/
  registry : Registry
  /-- The arguments. -/
  arguments : ArgumentBlock
  /-- The C stack. -/
  stack : CStack
  /-- Where the parts of the program lie. -/
  layout : Layout

namespace Machine

/-- A machine about to run a loaded program on an input script under a failure plan. -/
def start (program : Program) (script : List UInt8) (plan : FailurePlan) : Machine where
  cpu := program.cpu
  memory := program.memory
  console := Console.start script plan
  counters := Counters.zero
  registry := program.registry
  arguments := program.arguments
  stack := program.stack
  layout := program.layout

/-! ### Steps -/

/-- The call that a trapped routine receives. -/
def call (m : Machine) : Call where
  registers := m.cpu.registers
  memory := m.memory
  console := m.console
  counters := m.counters
  stack := m.stack
  arguments := m.arguments
  step := m.cpu.steps

/-- The machine with what a call left behind. -/
def afterCall (m : Machine) (c : Call) : Machine :=
  { m with
    cpu := { m.cpu with registers := c.registers }
    memory := c.memory
    console := c.console
    counters := c.counters }

/-- Answers the routine at a trapped address. -/
def answerTrap (m : Machine) (a : UInt16) : Machine :=
  match m.registry.lookup a with
  -- only an address with a routine is a trap, so a run does not come here
  | none => { m with cpu := m.cpu.resume }
  | some routine =>
    let (answer, c) := routine.answer m.call
    let m := m.afterCall c
    match answer with
    | .ok .goBack => { m with cpu := m.cpu.returnFromSubroutine m.memory }
    | .ok (.exit status) => { m with cpu := m.cpu.halt status }
    -- what the routine had stored when it met the violation stays stored
    | .error (.violation violation) => { m with cpu := m.cpu.stop (.contractViolation a violation) }
    | .error .abort => { m with cpu := m.cpu.abort }

/-- The machine with the processor's counts copied into the counters. -/
def syncCounters (m : Machine) : Machine :=
  { m with counters := { m.counters with steps := m.cpu.steps, cycles := m.cpu.cycles } }

/-- What the processor's next step comes to. -/
def event (m : Machine) : Cpu.Event :=
  m.cpu.event m.registry.isTrap m.memory

/-- The machine after an event of its processor. -/
def afterEvent (m : Machine) (event : Cpu.Event) : Machine :=
  let m := { m with cpu := m.cpu.after event, memory := m.memory.apply event.stores }
  -- a routine is answered in the step that reaches it
  match m.cpu.trappedAt? with
  | some a => (m.answerTrap a).syncCounters
  | none => m.syncCounters

/-- One step. -/
def step (m : Machine) : Machine :=
  m.afterEvent m.event

/-- The line traced by the next step, if any. -/
def trace? (m : Machine) : Option String :=
  if m.cpu.tracing then m.cpu.trace? m.memory m.event else none

/-! ### Runs -/

/-- Whether the run is over. -/
def isFinished (m : Machine) : Bool :=
  m.cpu.state.isFinished

/-- Steps until the run is over, but no more than `fuel` times. -/
def runFor : (fuel : Nat) → Machine → Machine
  | 0, m => m
  | fuel + 1, m => if m.isFinished then m else runFor fuel m.step

/-- A number of steps that is always enough: the budget left, one for the step that finds it used
up, and one for a machine that starts trapped. -/
def fuel (m : Machine) : Nat :=
  m.cpu.budget - m.cpu.steps + 2

/-- Runs to the end. -/
def run (m : Machine) : Machine :=
  runFor m.fuel m

/-- Steps like `runFor` and collects the lines traced, after those already collected. -/
def runForTraced : (fuel : Nat) → Machine → Array String → Machine × Array String
  | 0, m, lines => (m, lines)
  | fuel + 1, m, lines =>
    if m.isFinished then (m, lines)
    else
      -- the line shows the registers as they are before the step
      let line := m.trace?
      runForTraced fuel m.step (line.elim lines lines.push)

/-- Runs to the end and collects the lines traced. -/
def runTraced (m : Machine) : Machine × Array String :=
  runForTraced m.fuel m #[]

/-- The arguments as the program finds them in memory now. -/
def argumentsNow (m : Machine) : List (List UInt8) :=
  m.arguments.readBack m.memory

end Machine

/-! ### Results -/

/-- How a run ended. -/
inductive Outcome where
  /-- By an exit call. -/
  | exited (status : Int)
  /-- By a fault. -/
  | faulted (fault : Fault)
  deriving DecidableEq, Repr

/-- How a processor's run ended. One that is not finished has at least used the steps it took. -/
def Cpu.outcome (cpu : Cpu) : Outcome :=
  match cpu.state with
  | .halted status => .exited status
  | .faulted fault => .faulted fault
  | _ => .faulted (.timeout cpu.steps)

/-- What can be seen of a run. -/
structure RunResult where
  /-- What the program wrote and read. -/
  transcript : Transcript
  /-- How it ended. -/
  outcome : Outcome
  /-- What it did, in numbers. -/
  counters : Counters
  deriving DecidableEq, Repr

namespace RunResult

/-- The result of a machine's run. -/
def of (m : Machine) : RunResult :=
  ⟨m.console.transcript, m.cpu.outcome, m.counters⟩

/-- The exit status, if the program exited. -/
def exitStatus? (r : RunResult) : Option Int :=
  match r.outcome with
  | .exited status => some status
  | .faulted _ => none

/-- The fault, if there was one. -/
def fault? (r : RunResult) : Option Fault :=
  match r.outcome with
  | .faulted fault => some fault
  | .exited _ => none

end RunResult

/-- Why a run has no result. -/
inductive RunFailure where
  /-- The program could not be loaded. -/
  | load (cause : LoadError)
  /-- The run was aborted, and with it everything that was waiting for its result. -/
  | aborted
  deriving DecidableEq, Repr

/-- The result of a machine whose run is over, unless it was aborted. -/
def Machine.result (m : Machine) : Except RunFailure RunResult :=
  if m.cpu.state = .aborted then .error .aborted else .ok (RunResult.of m)

/-- Loads a program and runs it on a script, under a failure plan. -/
def runProgram (image : Image) (args : List (List UInt8)) (script : List UInt8)
    (plan : FailurePlan) (settings : Settings) : Except RunFailure RunResult :=
  match Program.load image args settings with
  | .error e => .error (.load e)
  | .ok program => (Machine.start program script plan).run.result

/-- Loads and runs a program like `runProgram` and yields the lines traced as well. -/
def runProgramTraced (image : Image) (args : List (List UInt8)) (script : List UInt8)
    (plan : FailurePlan) (settings : Settings) : Except RunFailure (RunResult × Array String) :=
  match Program.load image args settings with
  | .error e => .error (.load e)
  | .ok program =>
    let (m, lines) := (Machine.start program script plan).runTraced
    m.result.map (·, lines)

/-- Loads a program and runs it with the default settings, except for the budget if one is
given. -/
def runDefault (image : Image) (args : List (List UInt8)) (script : List UInt8)
    (budget : Option Nat) : Except RunFailure RunResult :=
  let settings := { Settings.default with
    stepBudget := budget.getD Settings.default.stepBudget }
  runProgram image args script settings.failurePlan settings

end Bench65
