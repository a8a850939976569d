import Bench65.TestCase

/-!
# Suites

A suite is a list of cases, some of which may turn out to be impossible to assemble; such a case is
reported with its error in the place it has in the list. Cases share nothing, so each report
depends on its own case and the settings alone.
-/

namespace Bench65

/-- A case of a suite. -/
inductive SuiteCase where
  /-- A case that can be run. -/
  | ready (testCase : TestCase)
  /-- A case that could not be assembled. -/
  | broken (name : String) (cause : BenchError)

namespace SuiteCase

/-- The name of a case. -/
def name : SuiteCase → String
  | ready c => c.name
  | broken name _ => name

/-- Runs a case, or reports why it cannot be run. -/
def run (c : SuiteCase) (s : Settings) : CaseReport :=
  match c with
  | ready c => c.run s
  | broken name cause => ⟨name, .error cause, none⟩

end SuiteCase

/-- The reports of a suite, in the order of its cases. -/
structure SuiteReport where
  /-- One report for every case. -/
  cases : List CaseReport

namespace SuiteReport

/-- The number of cases that passed. -/
def passed (r : SuiteReport) : Nat :=
  r.cases.countP (·.verdict.isPass)

/-- The number of cases that did not pass. -/
def failed (r : SuiteReport) : Nat :=
  r.cases.length - r.passed

/-- The exit code that tells whether all cases passed. -/
def exitCode (r : SuiteReport) : UInt8 :=
  if r.failed = 0 then 0 else 1

/-- Whether the run of a case was aborted. A suite does not outlive that: there is no report
then. -/
def isAborted (r : SuiteReport) : Bool :=
  r.cases.any (·.verdict = .error .aborted)

/-- The numbers in one line. -/
def summary (r : SuiteReport) : String :=
  s!"{r.cases.length} cases: {r.passed} passed, {r.failed} failed"

end SuiteReport

/-- Runs all cases of a suite. -/
def runSuite (cases : List SuiteCase) (s : Settings) : SuiteReport :=
  ⟨cases.map (·.run s)⟩

end Bench65
