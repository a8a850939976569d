import Bench65.Routine
import Bench65.Text.Column
import Bench65.Text.Decimal

/-!
# Counters

What a run did, in numbers: steps and cycles, routines answered, bytes read and written, writes
refused. The numbers are printed in three sections, which can be asked for by name.
-/

namespace Bench65

/-- How often each routine was called. -/
structure CallCounts where
  /-- The routines called, each once, with the number of calls. -/
  entries : List (Routine × Nat)
  deriving DecidableEq, Repr

namespace CallCounts

/-- No calls. -/
def none : CallCounts := ⟨[]⟩

/-- The number of calls of a routine. -/
def count (c : CallCounts) (r : Routine) : Nat :=
  (c.entries.lookup r).getD 0

/-- One more call of a routine, in a list of counts. -/
def increment (r : Routine) : List (Routine × Nat) → List (Routine × Nat)
  | [] => [(r, 1)]
  | (s, n) :: rest => if r = s then (s, n + 1) :: rest else (s, n) :: increment r rest

/-- One more call of a routine. -/
def add (c : CallCounts) (r : Routine) : CallCounts :=
  ⟨increment r c.entries⟩

/-- The routines called and their counts, in the order of the routines' names. -/
def toList (c : CallCounts) : List (Routine × Nat) :=
  Routine.all.filterMap fun r => (c.entries.lookup r).map (r, ·)

end CallCounts

/-- The counters of one run. -/
structure Counters where
  /-- Instructions executed and routines answered. -/
  steps : Nat
  /-- Cycles consumed. -/
  cycles : Nat
  /-- Routines answered. -/
  traps : Nat
  /-- Bytes read from the script. -/
  bytesRead : Nat
  /-- Bytes the console accepted. -/
  bytesWritten : Nat
  /-- Write calls refused. -/
  writeFailures : Nat
  /-- Calls of each routine. -/
  calls : CallCounts
  deriving DecidableEq, Repr

namespace Counters

/-- The counters of a run that has done nothing yet. -/
def zero : Counters := ⟨0, 0, 0, 0, 0, 0, CallCounts.none⟩

instance : Inhabited Counters := ⟨zero⟩

/-- Counts one call of a routine. -/
def recordCall (c : Counters) (r : Routine) : Counters :=
  { c with traps := c.traps + 1, calls := c.calls.add r }

/-! ### Printing -/

/-- The line that closes a section. -/
def rule : String :=
  "".pushn '-' 58

/-- A line with a label in its column. -/
def line (label value : String) : String :=
  column 25 label ++ value

/-- The lines of a section, by its name. -/
def sectionLines (c : Counters) : String → List String
  | "summary" =>
    [line "run.steps" (toString c.steps),
     line "run.cycles" (toString c.cycles),
     line "run.cycles_per_step" (Decimal.perUnit c.cycles c.steps),
     line "run.traps" (toString c.traps),
     rule]
  | "io" =>
    [line "io.bytes_read" (toString c.bytesRead),
     line "io.bytes_written" (toString c.bytesWritten),
     line "io.write_failures" (toString c.writeFailures),
     rule]
  | "calls" =>
    (c.calls.toList.map fun (r, n) => s!"  call.{column 18 r.name} {n}") ++ [rule]
  | _ => []

/-- The names of the sections, in the order they are printed. -/
def sectionNames : List String :=
  ["summary", "io", "calls"]

/-- The sections asked for, in their own order; asking for none means all. -/
def render (c : Counters) (sections : List String) : String :=
  let wanted := sectionNames.filter fun s => sections.isEmpty || sections.contains s
  String.join ((wanted.flatMap c.sectionLines).map (· ++ "\n"))

/-- All sections. -/
def summary (c : Counters) : String :=
  c.render []

end Counters

end Bench65
