import Bench65.DocumentError
import Bench65.Json.Decode
import Bench65.Json.Parser
import Bench65.Settings

/-!
# Configurations

Settings written as a JSON document: five sections, each with a few fields. Sections and fields
that are not written keep their defaults; names the format does not know are ignored.
-/

namespace Bench65.Settings

open Json (Record)

/-- The fields of a section, which may be missing. -/
def section? (r : Record) (name : String) (fields : List String) : Option Record :=
  r.optional name (Json.toRecord fields false) []

/-- Settings from a document. -/
def ofJson? (j : Json) : Option Settings := do
  let d := Settings.default
  let r ← Json.toRecord ["general", "memory", "cpu", "console", "shims"] false j
  let general ← section? r "general" ["step_budget", "trace_instructions"]
  let memory ← section? r "memory" ["args_top", "stack_top", "fill"]
  let cpu ← section? r "cpu" ["variant"]
  let console ← section? r "console" ["fail_writes", "fail_writes_from"]
  let shims ← section? r "shims" ["paravirt", "library"]
  let stepBudget ← general.optional "step_budget" Json.toCount d.stepBudget
  let tracing ← general.optional "trace_instructions" Json.toBool d.tracing
  let argumentTop ← memory.optional "args_top" Json.toWord d.argumentTop
  let stackTop ← memory.optional "stack_top" Json.toByte d.stackTop
  let fill ← memory.optional "fill" Json.toByte d.fill
  let variant ← cpu.optional "variant" (Json.toOption Json.toVariant) d.variant
  let failWrites ← console.optional "fail_writes" (Json.toList Json.toCount) d.failWrites
  let failWritesFrom ←
    console.optional "fail_writes_from" (Json.toOption Json.toCount) d.failWritesFrom
  let hooks ← shims.optional "paravirt" Json.toBool d.hooks
  let library ← shims.optional "library" Json.toBool d.library
  pure { stepBudget, tracing, argumentTop, stackTop, fill, variant, failWrites, failWritesFrom,
         hooks, library }

/-- Settings from the text of a document. -/
def parse (text : String) : Except DocumentError Settings :=
  match Json.parse? text with
  | none => .error (.configuration .malformed)
  | some j =>
    match ofJson? j with
    | none => .error (.configuration .unexpected)
    | some settings => .ok settings

end Bench65.Settings
