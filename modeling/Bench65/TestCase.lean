import Bench65.Machine
import Bench65.Text.Column
import Bench65.Verdict

/-!
# Test cases

A test case is a program with its arguments and input, and what is expected of its run. Judging
compares standard output first, then standard error if the case has an expectation for it, then
the exit status. Where a fault is expected the run must end in a fault of that kind, and its output
is compared all the same.
-/

namespace Bench65

/-- What is expected of a run. -/
structure Expectation where
  /-- Standard output. -/
  output : List UInt8
  /-- Standard error, if it matters. -/
  errorOutput : Option (List UInt8)
  /-- The exit status. -/
  status : Int
  /-- The kind of fault the run must end with instead of exiting. -/
  fault : Option FaultKind
  deriving DecidableEq, Repr

/-- A program to run and what to expect. -/
structure TestCase where
  /-- The name in reports. -/
  name : String
  /-- The program. -/
  image : Image
  /-- The program's name and arguments. -/
  args : List (List UInt8)
  /-- The input script. -/
  input : List UInt8
  /-- What is expected. -/
  expectation : Expectation
  /-- The step budget, if not the configured one. -/
  stepBudget : Option Nat
  /-- The failure plan, used instead of the configured one if it is not empty. -/
  plan : FailurePlan
  deriving DecidableEq, Repr

/-! ### Comparing -/

/-- The number of bytes two streams have in common at their start. -/
def commonLength : List UInt8 → List UInt8 → Nat
  | e :: expected, a :: actual => if e = a then commonLength expected actual + 1 else 0
  | _, _ => 0

/-- The first place where two streams differ, with the byte each has there. -/
def firstDifference (expected actual : List UInt8) :
    Option (Nat × Option UInt8 × Option UInt8) :=
  let offset := commonLength expected actual
  match expected[offset]?, actual[offset]? with
  | none, none => none
  | e, a => some (offset, e, a)

/-- The first difference between standard output and what was expected. -/
def compareOutput (expected actual : List UInt8) : Option Mismatch :=
  (firstDifference expected actual).map fun (offset, e, a) => .output offset e a

namespace Expectation

/-- The first difference on either stream. -/
def streamMismatch (x : Expectation) (t : Transcript) : Option Mismatch :=
  (compareOutput x.output t.stdout).or <| do
    let expected ← x.errorOutput
    let (offset, e, a) ← firstDifference expected t.stderr
    some (.errorOutput offset e a)

/-- The verdict on a run. -/
def judge (x : Expectation) (r : RunResult) : Verdict :=
  let streams := x.streamMismatch r.transcript
  match r.outcome, x.fault with
  | .faulted fault, expected =>
    -- with the fault that was expected there is no status, but the streams still count
    if expected = some fault.kind then streams.elim .pass .fail
    else
      match fault with
      | .timeout steps => .timeout steps
      | fault => .error (.ofFault fault)
  | .exited status, some kind => .fail (.missingFault kind status)
  | .exited status, none =>
    -- a wrong status is reported only when the streams are right
    match streams with
    | some difference => .fail difference
    | none => if status = x.status then .pass else .fail (.exitStatus x.status status)

end Expectation

/-! ### Running -/

/-- What became of a case. -/
structure CaseReport where
  /-- The name of the case. -/
  name : String
  /-- The verdict. -/
  verdict : Verdict
  /-- The run, if there was one. -/
  result : Option RunResult

/-- The report in one line. -/
def CaseReport.line (r : CaseReport) : String :=
  s!"{column 8 r.verdict.tag} {r.name}{r.verdict.detail}"

namespace TestCase

/-- The settings a case runs under: its own budget goes before the configured one. -/
def settings (c : TestCase) (s : Settings) : Settings :=
  { s with stepBudget := c.stepBudget.getD s.stepBudget }

/-- The failure plan a case runs under: its own one, if not empty, goes before the configured
one. -/
def effectivePlan (c : TestCase) (s : Settings) : FailurePlan :=
  if c.plan.isEmpty then s.failurePlan else c.plan

/-- Runs a case and judges it. -/
def run (c : TestCase) (s : Settings) : CaseReport :=
  match runProgram c.image c.args c.input (c.effectivePlan s) (c.settings s) with
  | .ok result => ⟨c.name, c.expectation.judge result, some result⟩
  | .error (.load e) => ⟨c.name, .error (.load e), none⟩
  | .error .aborted => ⟨c.name, .error .aborted, none⟩

end TestCase

end Bench65
