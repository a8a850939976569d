import Bench65.CommandLine
import Bench65.Manifest
import Bench65.Settings.Document
import Bench65.Text.Ascii

/-!
# Commands

What the two commands do, as a function of the files they can read. Running a program copies its
output and exits with its status, or with 1 after a fault. Running a suite writes a line for every
case and a summary and exits with 0 if all cases passed and with 1 otherwise. A command that
cannot start, because a file is of no use or the program cannot be loaded, says why and exits
with 2. A run that is aborted takes the command with it.
-/

namespace Bench65

/-- What a command leaves behind. -/
structure CommandResult where
  /-- The exit code. -/
  exitCode : UInt8
  /-- What it wrote to standard output. -/
  stdout : List UInt8
  /-- What it wrote to standard error. -/
  stderr : List UInt8
  /-- The instructions it was asked to show. -/
  trace : Array String

namespace CommandResult

/-- Text as bytes. -/
def textBytes (text : String) : List UInt8 :=
  text.toByteArray.toList

/-- A line that says what went wrong. -/
def complaint (message : String) : List UInt8 :=
  textBytes s!"bug65: {message}\n"

/-- The result of a command that could not start. -/
def notStarted (message : String) : CommandResult :=
  ⟨2, [], complaint message, #[]⟩

end CommandResult

open CommandResult

namespace RunCommand

/-- The program of the command, with its labels. -/
def program (c : RunCommand) (files : Files) (settings : Settings) : Except LoadError Image := do
  let bytes ← files.load c.image
  let image ← match c.placement with
    | some (load, entry) => pure (Image.raw bytes load entry (settings.variant.getD .nmos))
    | none => Image.parse bytes
  match c.labels with
  | none => pure image
  | some labels => return image.withSymbols (← Symbols.parse (← files.loadText labels))

/-- The input script of the command. -/
def script (c : RunCommand) (files : Files) : Except LoadError (List UInt8) :=
  match c.input with
  | none => .ok []
  | some input => files.load input

/-- The settings of the command: its own options go before the configuration. -/
def settings (c : RunCommand) (s : Settings) : Settings :=
  { s with stepBudget := c.stepBudget.getD s.stepBudget, tracing := c.tracing || s.tracing }

/-- The arguments the program finds: its path and what the command passes on. -/
def arguments (c : RunCommand) : List (List UInt8) :=
  (c.image :: c.args).map textBytes

/-- The result of the command after a run. -/
def finish (c : RunCommand) (r : RunResult) (trace : Array String) : CommandResult :=
  let counts := if c.counting then textBytes r.counters.summary else []
  let stderr := r.transcript.stderr ++ counts
  match r.outcome with
  | .exited status => ⟨UInt8.ofNat status.toNat, r.transcript.stdout, stderr, trace⟩
  | .faulted fault => ⟨1, r.transcript.stdout, stderr ++ complaint fault.message, trace⟩

/-- Carries out the command, unless the run is aborted. -/
def execute (c : RunCommand) (files : Files) (base : Settings) : Option CommandResult :=
  let settings := c.settings base
  let started := do
    let image ← (c.program files settings).mapError RunFailure.load
    let script ← (c.script files).mapError RunFailure.load
    runProgramTraced image c.arguments script settings.failurePlan settings
  match started with
  | .error (.load e) => some (notStarted (BenchError.load e).message)
  | .error .aborted => none
  | .ok (result, trace) => some (c.finish result trace)

end RunCommand

/-- Carries out the command that runs a suite, unless one of its runs is aborted. -/
def executeSuite (manifest : String) (files : Files) (settings : Settings) : Option CommandResult :=
  match Manifest.read files manifest with
  | .error e => some (notStarted (BenchError.document e).message)
  | .ok m =>
    let report := runSuite (m.resolve files (Path.directory manifest)) settings
    let lines := report.cases.map (·.line) ++ [report.summary]
    if report.isAborted then none
    else some ⟨report.exitCode, textBytes (String.join (lines.map (· ++ "\n"))), [], #[]⟩

namespace CommandLine

/-- The settings that the command line's configuration describes. -/
def settings (line : CommandLine) (files : Files) : Except DocumentError Settings :=
  match line.config with
  | none => .ok Settings.default
  | some path => do Settings.parse (← files.document path)

/-- Carries out a command line. -/
def execute (line : CommandLine) (files : Files) : Option CommandResult :=
  match line.settings files with
  | .error e => some (notStarted (BenchError.document e).message)
  | .ok settings =>
    match line.command with
    | .run command => command.execute files settings
    | .suite manifest _ => executeSuite manifest files settings

/-! ### Files to read -/

/-- The paths that a command line names. -/
def paths (line : CommandLine) : List String :=
  line.config.toList ++
  match line.command with
  | .run command => command.image :: command.labels.toList ++ command.input.toList
  | .suite manifest _ => [manifest]

/-- The paths that the manifest of a command line names, if it can be read. -/
def manifestPaths (line : CommandLine) (files : Files) : List String :=
  match line.command with
  | .run _ => []
  | .suite manifest _ =>
    match Manifest.read files manifest with
    | .error _ => []
    | .ok m => m.paths (Path.directory manifest)

end CommandLine

end Bench65
