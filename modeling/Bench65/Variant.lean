/-!
# Processor variants

Two processors share one instruction set: the NMOS part, and the CMOS part that adds 27
instructions and changes a few corners (`JMP` through a pointer, decimal flags, `BRK`).
A program file names its processor by one byte.
-/

namespace Bench65

/-- The processor that executes a program. -/
inductive Variant where
  /-- The 6502, the default. -/
  | nmos
  /-- The 65C02. -/
  | cmos
  deriving DecidableEq, Repr, Inhabited

namespace Variant

/-- The byte that stands for the processor in the header of a program file. -/
def headerByte : Variant → UInt8
  | nmos => 0
  | cmos => 1

/-- The processor that a header byte stands for, if any. -/
def ofHeaderByte? (b : UInt8) : Option Variant :=
  if b = 0 then some nmos else if b = 1 then some cmos else none

/-- Whether this is the 65C02. -/
def isCmos : Variant → Bool
  | nmos => false
  | cmos => true

/-- The name by which configurations and reports call the processor. -/
def name : Variant → String
  | nmos => "Nmos6502"
  | cmos => "Cmos65C02"

/-- A header byte is accepted exactly when some processor writes it. -/
theorem ofHeaderByte?_eq_some_iff {b : UInt8} {v : Variant} :
    ofHeaderByte? b = some v ↔ b = v.headerByte := by
  cases v <;> simp only [ofHeaderByte?, headerByte] <;> split <;> simp_all

end Variant

end Bench65
