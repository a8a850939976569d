/-!
# Routines

The calls that are answered instead of executed: five library routines, found by their labels, and
six host hooks at fixed addresses.
-/

namespace Bench65

/-- A routine answered by the host. -/
inductive Routine where
  /-- `int printf(const char *format, ...)` -/
  | printf
  /-- `int puts(const char *text)` -/
  | puts
  /-- `int putchar(int c)` -/
  | putchar
  /-- `int getchar(void)` -/
  | getchar
  /-- `void exit(int status)` -/
  | exit
  /-- The hook for `int open(const char *name, int flags, ...)`. -/
  | hostOpen
  /-- The hook for `int close(int fd)`. -/
  | hostClose
  /-- The hook for `int read(int fd, void *buffer, unsigned count)`. -/
  | hostRead
  /-- The hook for `int write(int fd, const void *buffer, unsigned count)`. -/
  | hostWrite
  /-- The hook for `int args(char ***argv)`. -/
  | hostArgs
  /-- The hook for `void exit(int status)`. -/
  | hostExit
  deriving DecidableEq, Repr

namespace Routine

/-- All routines, in the order of their names. -/
def all : List Routine :=
  [exit, getchar, printf, putchar, puts, hostArgs, hostClose, hostExit, hostOpen, hostRead,
   hostWrite]

/-- The name used in messages and statistics. -/
def name : Routine → String
  | printf => "printf"
  | puts => "puts"
  | putchar => "putchar"
  | getchar => "getchar"
  | exit => "exit"
  | hostOpen => "pv_open"
  | hostClose => "pv_close"
  | hostRead => "pv_read"
  | hostWrite => "pv_write"
  | hostArgs => "pv_args"
  | hostExit => "pv_exit"

/-- The routine of a name. -/
def ofName? (name : String) : Option Routine :=
  all.find? (·.name == name)

/-- The library routine that a label names: C names carry an underscore. -/
def ofSymbol? : String → Option Routine
  | "_printf" => some printf
  | "_puts" => some puts
  | "_putchar" => some putchar
  | "_getchar" => some getchar
  | "_exit" => some exit
  | _ => none

/-- The host hooks and their addresses, lowest first. -/
def hooks : List (UInt16 × Routine) :=
  [(0xFFF4, hostOpen), (0xFFF5, hostClose), (0xFFF6, hostRead), (0xFFF7, hostWrite),
   (0xFFF8, hostArgs), (0xFFF9, hostExit)]

theorem mem_all (r : Routine) : r ∈ all := by
  cases r <;> decide

end Routine

end Bench65
