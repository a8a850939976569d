/-!
# Failure plans

A plan says which write calls of a run are refused. Calls are numbered from zero in the order they
are made, over both streams, refused calls included. A plan names single calls and possibly a call
from which on all are refused.
-/

namespace Bench65

/-- The write calls that are to fail. -/
structure FailurePlan where
  /-- Single calls that fail. -/
  calls : List Nat
  /-- The call from which on all fail. -/
  start : Option Nat
  deriving DecidableEq, Repr

namespace FailurePlan

/-- The plan under which no write fails. -/
def none : FailurePlan := ⟨[], Option.none⟩

instance : Inhabited FailurePlan := ⟨none⟩

/-- The plan under which one more call fails. -/
def withCall (plan : FailurePlan) (call : Nat) : FailurePlan :=
  { plan with calls := call :: plan.calls }

/-- The plan under which also every call from a given one on fails; the earliest start counts. -/
def withStart (plan : FailurePlan) (call : Nat) : FailurePlan :=
  { plan with start := some (plan.start.elim call (min · call)) }

/-- The plan of a list of calls and a possible start. -/
def ofCalls (calls : List Nat) (start : Option Nat) : FailurePlan :=
  let plan := calls.foldl withCall none
  start.elim plan plan.withStart

/-- Whether a call is to fail. -/
def fails (plan : FailurePlan) (call : Nat) : Bool :=
  plan.calls.contains call || plan.start.any (· ≤ call)

/-- Whether no call is to fail. -/
def isEmpty (plan : FailurePlan) : Bool :=
  plan.calls.isEmpty && plan.start.isNone

end FailurePlan

end Bench65
