import Bench65.Text.Number

/-!
# The command line

Two commands: `run` runs one program, `suite` runs the cases of a manifest. Options may stand before
or after the words of a command; values follow as the next argument or after an equals sign. A
value given as an argument of its own must not look like an option. No option may be given twice,
except that `--config` is read both before the command and after it, where the later one counts.
What follows two dashes is for the program that is run.
-/

namespace Bench65

/-- What `run` is asked to do. -/
structure RunCommand where
  /-- The path of the program. -/
  image : String
  /-- The path of its label file. -/
  labels : Option String
  /-- The path of its input. -/
  input : Option String
  /-- The step budget. -/
  stepBudget : Option Nat
  /-- Whether to show every instruction. -/
  tracing : Bool
  /-- Whether to show what the run did, in numbers. -/
  counting : Bool
  /-- The load and entry addresses of a program without header. -/
  placement : Option (UInt16 × UInt16)
  /-- The arguments of the program. -/
  args : List String
  deriving DecidableEq, Repr

/-- A command. -/
inductive Command where
  /-- Runs one program. -/
  | run (command : RunCommand)
  /-- Runs the cases of a manifest with some number of workers. -/
  | suite (manifest : String) (jobs : Option Nat)
  deriving DecidableEq, Repr

/-- A command line. -/
structure CommandLine where
  /-- The path of the configuration. -/
  config : Option String
  /-- What to do. -/
  command : Command
  deriving DecidableEq, Repr

namespace CommandLine

/-! ### Words and options -/

/-- An option that a command knows. -/
structure OptionForm where
  /-- Its name, behind two dashes. -/
  long : String
  /-- Its letter, behind one dash. -/
  short : Option Char
  /-- Whether it has a value. -/
  hasValue : Bool

/-- A part of a command line. -/
inductive Part where
  /-- An option with its value, which is empty for an option without one. -/
  | option (name value : String)
  /-- A word. -/
  | word (text : String)
  /-- An argument that is not looked at here. -/
  | tail (text : String)
  deriving DecidableEq, Repr

/-- Whether an argument can be a word or a value: it does not look like an option. A lone dash is
a name that files may have. -/
def isValue (arg : String) : Bool :=
  arg = "-" || !arg.startsWith "-"

/-- The text before and behind the first equals sign. -/
def splitValue : List Char → List Char × Option (List Char)
  | [] => ([], none)
  | c :: rest =>
    if c = '=' then ([], some rest)
    else
      let (name, value) := splitValue rest
      (c :: name, value)

/-- The option an argument names, with the value attached to it: `--name`, `--name=value`, `-n`,
`-nvalue` or `-n=value`. -/
def readOption (forms : List OptionForm) : List Char → Option (OptionForm × Option String)
  | '-' :: '-' :: rest => do
    let (name, value) := splitValue rest
    let form ← forms.find? (·.long == String.ofList name)
    some (form, value.map String.ofList)
  | '-' :: letter :: rest => do
    let form ← forms.find? (·.short == some letter)
    match rest with
    | [] => some (form, none)
    | '=' :: value | value => some (form, some (String.ofList value))
  | _ => none

/-- Takes a line apart. Where `stops` is set the first word is the last part looked at; two
dashes always are. An unknown option, a missing value and a value that is not wanted make the
line unusable. -/
def parts? (forms : List OptionForm) (stops : Bool) : List String → Option (List Part)
  | [] => some []
  | arg :: rest =>
    if arg = "--" then some (rest.map .tail)
    else if isValue arg then
      -- the first word names the command, whose own options follow
      if stops then some (.word arg :: rest.map .tail)
      else (parts? forms stops rest).map (.word arg :: ·)
    else
      match readOption forms arg.toList with
      | none => none
      | some (form, some value) =>
        if form.hasValue then (parts? forms stops rest).map (.option form.long value :: ·) else none
      | some (form, none) =>
        if form.hasValue then
          match rest with
          | [] => none
          | value :: rest =>
            if isValue value then (parts? forms stops rest).map (.option form.long value :: ·)
            else none
        else (parts? forms stops rest).map (.option form.long "" :: ·)

/-- The words among some parts. -/
def words (parts : List Part) : List String :=
  parts.filterMap fun | .word text => some text | _ => none

/-- The arguments that were not looked at. -/
def tails (parts : List Part) : List String :=
  parts.filterMap fun | .tail text => some text | _ => none

/-- The values given to an option. -/
def values (parts : List Part) (name : String) : List String :=
  parts.filterMap fun | .option n value => if n = name then some value else none | _ => none

/-- Whether an option without value is given; giving it twice is an error. -/
def flag? (parts : List Part) (name : String) : Option Bool :=
  match values parts name with
  | [] => some false
  | [_] => some true
  | _ => none

/-- The value of an option, read by `read`; giving it twice is an error. -/
def value? {α : Type} (parts : List Part) (name : String) (read : String → Option α) :
    Option (Option α) :=
  match values parts name with
  | [] => some none
  | [value] => (read value).map some
  | _ => none

/-! ### Values -/

/-- A path, which has at least one character. -/
def readPath (text : String) : Option String :=
  if text.isEmpty then none else some text

/-- A count of at most 64 bits. -/
def readCount (text : String) : Option Nat :=
  Number.read? 10 0xFFFFFFFFFFFFFFFF text.toList

/-- An address: hexadecimal behind `$` or `0x`, otherwise decimal. -/
def readAddress (text : String) : Option UInt16 :=
  (match text.toList with
    | '$' :: digits | '0' :: 'x' :: digits => Number.read? 16 0xFFFF digits
    | digits => Number.read? 10 0xFFFF digits).map UInt16.ofNat

/-! ### Commands -/

/-- The option that all commands know. -/
def commonForms : List OptionForm :=
  [⟨"config", none, true⟩]

/-- The options of `run`. -/
def runForms : List OptionForm :=
  commonForms ++
  [⟨"labels", none, true⟩, ⟨"input", none, true⟩, ⟨"step-budget", none, true⟩,
   ⟨"trace", none, false⟩, ⟨"stats", none, false⟩, ⟨"load", none, true⟩,
   ⟨"entry", none, true⟩]

/-- The options of `suite`. -/
def suiteForms : List OptionForm :=
  commonForms ++ [⟨"jobs", some 'j', true⟩]

/-- Reads the parts of `run`. Load and entry address are given together or not at all. -/
def readRun (parts : List Part) : Option RunCommand := do
  let labels ← value? parts "labels" readPath
  let input ← value? parts "input" readPath
  let stepBudget ← value? parts "step-budget" readCount
  let tracing ← flag? parts "trace"
  let counting ← flag? parts "stats"
  let load ← value? parts "load" readAddress
  let entry ← value? parts "entry" readAddress
  let placement ← match load, entry with
    | none, none => some none
    | some load, some entry => some (some (load, entry))
    | _, _ => none
  match words parts with
  | [image] =>
    let image ← readPath image
    some { image, labels, input, stepBudget, tracing, counting, placement, args := tails parts }
  | _ => none

/-- Reads the parts of `suite`. What follows two dashes are words as well. -/
def readSuite (parts : List Part) : Option (String × Option Nat) := do
  let jobs ← value? parts "jobs" readCount
  match words parts ++ tails parts with
  | [manifest] =>
    let manifest ← readPath manifest
    some (manifest, jobs)
  | _ => none

/-- Reads a command line; `none` if it is not one. -/
def parse? (args : List String) : Option CommandLine := do
  let outer ← parts? commonForms true args
  let outerConfig ← value? outer "config" readPath
  match words outer with
  | ["run"] =>
    let inner ← parts? runForms false (tails outer)
    let config ← value? inner "config" readPath
    let command ← readRun inner
    some ⟨config.or outerConfig, .run command⟩
  | ["suite"] =>
    let inner ← parts? suiteForms false (tails outer)
    let config ← value? inner "config" readPath
    let (manifest, jobs) ← readSuite inner
    some ⟨config.or outerConfig, .suite manifest jobs⟩
  | _ => none

end CommandLine

end Bench65
