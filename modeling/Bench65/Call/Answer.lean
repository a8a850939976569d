import Bench65.Call.Library
import Bench65.Call.Hooks

/-!
# Answering calls

Every call is counted before it is answered, whether or not it keeps to its contract.
-/

namespace Bench65

/-- Answers a call of a routine without counting it. -/
def Routine.perform (routine : Routine) (c : Call) : Call.Answer :=
  match routine with
  | .printf => c.printf
  | .puts => c.puts
  | .putchar => c.putchar
  | .getchar => c.getchar
  | .exit => c.exit
  | .hostOpen => c.hostOpen
  | .hostClose => c.hostClose
  | .hostRead => c.hostRead
  | .hostWrite => c.hostWrite
  | .hostArgs => c.hostArgs
  | .hostExit => c.hostExit

/-- Answers a call of a routine. -/
def Routine.answer (routine : Routine) (c : Call) : Call.Answer :=
  routine.perform { c with counters := c.counters.recordCall routine }

end Bench65
