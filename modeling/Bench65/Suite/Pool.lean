import Bench65.Suite

/-!
# Workers

A suite may be shared out among several workers. They have in common a counter, from which a worker
takes the number of its next case, and a row of slots, one for each case, into which it puts the
report. A worker that takes a number past the last case stops.

Taking a number, running a case and putting a report away are single actions as far as the other
workers can see. In what order the workers act is not known beforehand: a schedule, the list of the
workers that act one after another, stands for any order.
-/

namespace Bench65

/-- What a worker does next. -/
inductive Worker where
  /-- It takes the number of a case. -/
  | taking
  /-- It runs the case it took. -/
  | running (index : Nat) (testCase : SuiteCase)
  /-- It puts away the report of a case it ran. -/
  | storing (index : Nat) (report : CaseReport)
  /-- Nothing: no cases are left. -/
  | stopped

namespace Worker

/-- Whether a worker has stopped. -/
def isStopped : Worker → Bool
  | stopped => true
  | _ => false

end Worker

/-- Workers on their way through a suite. -/
structure Pool where
  /-- The number of the next case. -/
  next : Nat
  /-- The reports put away so far, one slot for each case. -/
  slots : List (Option CaseReport)
  /-- The workers. -/
  workers : List Worker

namespace Pool

/-- The number of workers when some number is asked for: at least one, and no more than there are
cases. -/
def size (jobs cases : Nat) : Nat :=
  max 1 (min jobs cases)

/-- The workers before any of them has acted. -/
def start (cases : List SuiteCase) (jobs : Nat) : Pool where
  next := 0
  slots := List.replicate cases.length none
  workers := List.replicate (size jobs cases.length) .taking

/-- The pool after the next action of one worker. -/
def act (cases : List SuiteCase) (s : Settings) (p : Pool) (worker : Nat) : Pool :=
  match p.workers[worker]? with
  | none | some .stopped => p
  | some .taking =>
    -- a number is drawn even when no case has it, and the worker that draws it stops
    let next := (cases[p.next]?).elim .stopped (.running p.next)
    { p with next := p.next + 1, workers := p.workers.set worker next }
  | some (.running index testCase) =>
    { p with workers := p.workers.set worker (.storing index (testCase.run s)) }
  | some (.storing index report) =>
    { p with slots := p.slots.set index (some report), workers := p.workers.set worker .taking }

/-- The pool after the actions of a schedule. -/
def follow (cases : List SuiteCase) (s : Settings) (schedule : List Nat) (p : Pool) : Pool :=
  schedule.foldl (act cases s) p

/-- Whether all workers have stopped. -/
def isDone (p : Pool) : Bool :=
  p.workers.all (·.isStopped)

/-- The report of a case whose slot is empty. -/
def missing (c : SuiteCase) : CaseReport :=
  ⟨c.name, .error .workerStopped, none⟩

/-- The reports of a suite, in the order of its cases, as the slots have them. -/
def report (cases : List SuiteCase) (p : Pool) : SuiteReport :=
  ⟨cases.zipWith (fun c slot => slot.getD (missing c)) p.slots⟩

end Pool

/-- The reports of a suite run by a number of jobs, if the workers have stopped when the schedule
ends. A single worker takes no numbers and runs the cases one after the other. -/
def runSuiteShared (cases : List SuiteCase) (s : Settings) (jobs : Nat) (schedule : List Nat) :
    Option SuiteReport :=
  if Pool.size jobs cases.length = 1 then some (runSuite cases s)
  else
    let p := Pool.follow cases s schedule (Pool.start cases jobs)
    if p.isDone then some (p.report cases) else none

end Bench65
