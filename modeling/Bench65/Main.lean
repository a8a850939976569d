import Bench65.Command

/-!
# The program

Reads the files a command line names, carries it out and writes what it leaves behind. A path that
cannot be read counts as a file that does not exist.
-/

namespace Bench65

/-- The contents of those files among some paths that can be read. -/
def readFiles (paths : List String) : IO (List (String × List UInt8)) :=
  paths.filterMapM fun (path : String) => do
    try
      let bytes ← IO.FS.readBinFile path
      return some (path, bytes.toList)
    catch _ => return none

/-- Writes bytes to a stream. -/
def writeBytes (stream : IO.FS.Stream) (bytes : List UInt8) : IO Unit := do
  stream.write bytes.toByteArray
  stream.flush

/-- How the program is called, in short. -/
def usage : List String :=
  ["usage: bug65 [--config FILE] run IMAGE [OPTION]... [-- ARG]...",
   "       bug65 [--config FILE] suite MANIFEST [--jobs N]"]

/-- The exit code that a shell sees of a program that aborts. -/
def abortedCode : UInt32 := 134

/-- Carries out a command line and yields its exit code. -/
def carryOut (args : List String) : IO UInt32 := do
  match CommandLine.parse? args with
  | none =>
    usage.forM IO.eprintln
    return 2
  | some line =>
    let named ← readFiles line.paths
    let more ← readFiles (line.manifestPaths (Files.ofContents named))
    match line.execute (Files.ofContents (named ++ more)) with
    | none => return abortedCode
    | some result =>
      result.trace.forM IO.eprintln
      writeBytes (← IO.getStdout) result.stdout
      writeBytes (← IO.getStderr) result.stderr
      return result.exitCode.toUInt32

end Bench65

/-- The program. -/
def main (args : List String) : IO UInt32 :=
  Bench65.carryOut args
