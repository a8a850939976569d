import Bench65.Console.FailurePlan
import Bench65.Memory.Layout
import Bench65.Variant

/-!
# Settings

What a run can be told besides its program, arguments and input.
-/

namespace Bench65

/-- The settings of a run. -/
structure Settings where
  /-- The number of steps after which a run times out. -/
  stepBudget : Nat
  /-- Whether a line is traced for every instruction. -/
  tracing : Bool
  /-- One past the last address of the argument block. -/
  argumentTop : UInt16
  /-- The stack pointer at the start. -/
  stackTop : UInt8
  /-- What memory holds before a program is loaded. -/
  fill : UInt8
  /-- The processor, if it is not to be the one the program names. -/
  variant : Option Variant
  /-- Single write calls that fail. -/
  failWrites : List Nat
  /-- The write call from which on all fail. -/
  failWritesFrom : Option Nat
  /-- Whether the host hooks are answered. -/
  hooks : Bool
  /-- Whether library routines found by their labels are answered. -/
  library : Bool
  deriving DecidableEq, Repr

namespace Settings

/-- The settings of a run that is told nothing. -/
def default : Settings where
  stepBudget := 20000000
  tracing := false
  argumentTop := Layout.defaultArgumentTop
  stackTop := 0xFF
  fill := 0
  variant := none
  failWrites := []
  failWritesFrom := none
  hooks := true
  library := true

instance : Inhabited Settings := ⟨default⟩

/-- The failure plan that the settings ask for. -/
def failurePlan (s : Settings) : FailurePlan :=
  FailurePlan.ofCalls s.failWrites s.failWritesFrom

end Settings

end Bench65
