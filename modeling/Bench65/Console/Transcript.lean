/-!
# Transcripts

The record of everything a run wrote and read, each event stamped with the step at which it
happened. No clock is involved, so equal runs leave equal transcripts.
-/

namespace Bench65

/-- A stream that a program writes to. -/
inductive Stream where
  /-- Descriptor 1. -/
  | stdout
  /-- Descriptor 2. -/
  | stderr
  deriving DecidableEq, Repr

/-- Bytes written at once. -/
structure OutputEvent where
  /-- The step of the write. -/
  step : Nat
  /-- Where the bytes went. -/
  stream : Stream
  /-- What was written. -/
  bytes : List UInt8
  deriving DecidableEq, Repr

/-- One byte read. -/
structure InputEvent where
  /-- The step of the read. -/
  step : Nat
  /-- The byte delivered. -/
  byte : UInt8
  deriving DecidableEq, Repr

/-- What a run wrote and read, in order. -/
structure Transcript where
  /-- The writes. -/
  outputs : Array OutputEvent
  /-- The bytes read. -/
  inputs : Array InputEvent
  deriving DecidableEq, Repr, Inhabited

namespace Transcript

/-- The record of a run that has done nothing yet. -/
def empty : Transcript := ⟨#[], #[]⟩

/-- All bytes written to one stream, in order. -/
def stream (t : Transcript) (s : Stream) : List UInt8 :=
  (t.outputs.toList.filter (·.stream = s)).flatMap (·.bytes)

/-- All bytes written to standard output. -/
def stdout (t : Transcript) : List UInt8 := t.stream .stdout

/-- All bytes written to standard error. -/
def stderr (t : Transcript) : List UInt8 := t.stream .stderr

/-- All bytes read. -/
def consumed (t : Transcript) : List UInt8 :=
  t.inputs.toList.map (·.byte)

end Transcript

end Bench65
