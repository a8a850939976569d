import Bench65.LoadError

/-!
# The registry of routines

Which address belongs to which routine. An address keeps the routine it was first given; giving it
another one is a conflict. Entries are kept in the order of their addresses.
-/

namespace Bench65

/-- The addresses at which routines are answered. -/
structure Registry where
  /-- Addresses and routines, by ascending address. -/
  entries : List (UInt16 × Routine)
  deriving DecidableEq, Repr

namespace Registry

/-- The registry without entries. -/
def empty : Registry := ⟨[]⟩

instance : Inhabited Registry := ⟨empty⟩

/-- The registry of the host hooks. -/
def ofHooks : Registry := ⟨Routine.hooks⟩

/-- The routine at an address. -/
def lookup (r : Registry) (a : UInt16) : Option Routine :=
  r.entries.lookup a

/-- Whether execution stops at an address. -/
def isTrap (r : Registry) (a : UInt16) : Bool :=
  (r.lookup a).isSome

/-- An entry put in its place among entries with other addresses. -/
def insertEntry (a : UInt16) (routine : Routine) :
    List (UInt16 × Routine) → List (UInt16 × Routine)
  | [] => [(a, routine)]
  | (b, other) :: rest =>
    if a < b then (a, routine) :: (b, other) :: rest
    else (b, other) :: insertEntry a routine rest

/-- Gives a routine an address. Doing so twice is harmless; an address that has another routine
is a conflict. -/
def register (a : UInt16) (routine : Routine) : EStateM LoadError Registry Unit := do
  match (← get).lookup a with
  | none => modify fun r => ⟨insertEntry a routine r.entries⟩
  | some first => if first ≠ routine then throw (.routineConflict a first routine)

end Registry

end Bench65
