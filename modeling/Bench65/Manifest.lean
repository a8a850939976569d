import Bench65.Files
import Bench65.Json.Decode
import Bench65.Json.Parser
import Bench65.Suite

/-!
# Manifests

A suite written as a JSON document: an optional step budget for all cases, and the cases, each with
the files it needs and what is expected of it. Unknown names are refused. Paths are counted from a
base directory.

Assembling a case reads its files in a fixed order, image, labels, input, expected output, expected
error output, and the first one that is of no use makes the case a broken one; the other cases are
not affected.
-/

namespace Bench65

/-- Bytes given in the manifest or in a file. -/
inductive ByteSource where
  /-- The bytes of a text. -/
  | text (s : String)
  /-- The contents of a file. -/
  | file (path : String)
  deriving DecidableEq, Repr

/-- Where code without a header goes. -/
structure RawPlacement where
  /-- The load address. -/
  load : UInt16
  /-- The entry address. -/
  entry : UInt16
  /-- The processor. -/
  variant : Variant
  deriving DecidableEq, Repr

/-- A case as it is written. -/
structure CaseSpec where
  /-- The name in reports. -/
  name : String
  /-- The path of the program. -/
  image : String
  /-- The placement of a program without header. -/
  raw : Option RawPlacement
  /-- The path of the label file. -/
  labels : Option String
  /-- The program's name and arguments. -/
  args : List String
  /-- The input script. -/
  input : Option ByteSource
  /-- The standard output expected; nothing if it is not given. -/
  expectedOutput : Option ByteSource
  /-- The standard error expected, if it matters. -/
  expectedErrorOutput : Option ByteSource
  /-- The exit status expected. -/
  expectedStatus : Int
  /-- The kind of fault expected. -/
  expectedFault : Option FaultKind
  /-- The step budget, if not the manifest's. -/
  stepBudget : Option Nat
  /-- Single write calls that fail. -/
  failWrites : List Nat
  /-- The write call from which on all fail. -/
  failWritesFrom : Option Nat
  deriving DecidableEq, Repr

/-- A manifest. -/
structure Manifest where
  /-- The step budget of cases that have none. -/
  stepBudget : Option Nat
  /-- The cases. -/
  cases : List CaseSpec
  deriving DecidableEq, Repr

/-! ### Reading -/

namespace Json

/-- Bytes given as text, or by an object that names a file and may hold other plain members. Such
an object is the fourth container in a manifest. -/
def toByteSource : Decoder ByteSource
  | string text => text.map .text
  | object members =>
    if isPlain (maxDepth - 3) (object members) then do
      let r ← objectFields ["file"] false members
      let path ← r.required "file" toText
      pure (.file path)
    else none
  | _ => none

/-- A placement. -/
def toRawPlacement : Decoder RawPlacement := fun j => do
  let r ← toRecord ["load", "entry", "variant"] false j
  let load ← r.required "load" toWord
  let entry ← r.required "entry" toWord
  let variant ← r.optional "variant" toVariant .nmos
  pure { load, entry, variant }

/-- The fields of a case, in the order an array gives them. -/
def caseFields : List String :=
  ["name", "image", "raw", "labels", "args", "input", "expected_output", "expected_stderr",
   "expected_exit", "expected_fault", "step_budget", "fail_writes", "fail_writes_from"]

/-- A case. -/
def toCaseSpec : Decoder CaseSpec := fun j => do
  let r ← toRecord caseFields true j
  let name ← r.required "name" toText
  let image ← r.required "image" toText
  let raw ← r.optional "raw" (toOption toRawPlacement) none
  let labels ← r.optional "labels" (toOption toText) none
  let args ← r.optional "args" (toList toText) []
  let input ← r.optional "input" (toOption toByteSource) none
  let expectedOutput ← r.optional "expected_output" (toOption toByteSource) none
  let expectedErrorOutput ← r.optional "expected_stderr" (toOption toByteSource) none
  let expectedStatus ← r.optional "expected_exit" toInt32 0
  let expectedFault ← r.optional "expected_fault" (toOption toFaultKind) none
  let stepBudget ← r.optional "step_budget" (toOption toCount) none
  let failWrites ← r.optional "fail_writes" (toList toCount) []
  let failWritesFrom ← r.optional "fail_writes_from" (toOption toCount) none
  pure { name, image, raw, labels, args, input, expectedOutput, expectedErrorOutput,
         expectedStatus, expectedFault, stepBudget, failWrites, failWritesFrom }

/-- A manifest. -/
def toManifest : Decoder Manifest := fun j => do
  let r ← toRecord ["step_budget", "cases"] true j
  let stepBudget ← r.optional "step_budget" (toOption toCount) none
  let cases ← r.required "cases" (toList toCaseSpec)
  pure { stepBudget, cases }

end Json

namespace Manifest

/-- A manifest from the text of a document. -/
def parse (text : String) : Except DocumentError Manifest :=
  match Json.parse? text with
  | none => .error (.manifest .malformed)
  | some j =>
    match Json.toManifest j with
    | none => .error (.manifest .unexpected)
    | some m => .ok m

/-- A manifest from a file. -/
def read (files : Files) (path : String) : Except DocumentError Manifest := do
  parse (← files.document path)

end Manifest

/-! ### Assembling cases -/

/-- The bytes of a source. -/
def ByteSource.resolve (source : ByteSource) (files : Files) (base : String) :
    Except BenchError (List UInt8) :=
  match source with
  | .text s => .ok s.toByteArray.toList
  | .file path => (files.contents (Path.join base path)).mapError .document

/-- The bytes of a source that may not be given. -/
def resolveSource? (source : Option ByteSource) (files : Files) (base : String) :
    Except BenchError (Option (List UInt8)) :=
  match source with
  | none => .ok none
  | some source => (source.resolve files base).map some

namespace CaseSpec

/-- The program of a case, with its labels. -/
def resolveImage (spec : CaseSpec) (files : Files) (base : String) : Except LoadError Image := do
  let bytes ← files.load (Path.join base spec.image)
  let image ← match spec.raw with
    | some raw => pure (Image.raw bytes raw.load raw.entry raw.variant)
    | none => Image.parse bytes
  -- labels are read only behind an image that is all right
  match spec.labels with
  | none => pure image
  | some labels =>
    let text ← files.loadText (Path.join base labels)
    let symbols ← Symbols.parse text
    pure (image.withSymbols symbols)

/-- The case with all its files read. -/
def assemble (spec : CaseSpec) (manifestBudget : Option Nat) (files : Files) (base : String) :
    Except BenchError TestCase := do
  let image ← (spec.resolveImage files base).mapError .load
  let input ← resolveSource? spec.input files base
  let output ← resolveSource? spec.expectedOutput files base
  let errorOutput ← resolveSource? spec.expectedErrorOutput files base
  pure {
    name := spec.name
    image
    args := spec.args.map (·.toByteArray.toList)
    input := input.getD []
    expectation := ⟨output.getD [], errorOutput, spec.expectedStatus, spec.expectedFault⟩
    stepBudget := spec.stepBudget.or manifestBudget
    plan := FailurePlan.ofCalls spec.failWrites spec.failWritesFrom }

/-- The case as a suite takes it. -/
def resolve (spec : CaseSpec) (manifestBudget : Option Nat) (files : Files) (base : String) :
    SuiteCase :=
  match spec.assemble manifestBudget files base with
  | .ok c => .ready c
  | .error e => .broken spec.name e

end CaseSpec

/-- The path that a source names. -/
def ByteSource.path? : ByteSource → Option String
  | text _ => none
  | file path => some path

/-- The paths that a case names. -/
def CaseSpec.paths (spec : CaseSpec) : List String :=
  spec.image :: spec.labels.toList ++
    [spec.input, spec.expectedOutput, spec.expectedErrorOutput].filterMap (·.bind (·.path?))

/-- The paths of all files that a manifest needs. -/
def Manifest.paths (m : Manifest) (base : String) : List String :=
  (m.cases.flatMap (·.paths)).map (Path.join base)

/-- The suite that a manifest describes. -/
def Manifest.resolve (m : Manifest) (files : Files) (base : String) : List SuiteCase :=
  m.cases.map fun spec => spec.resolve m.stepBudget files base

end Bench65
