import Bench65.Proofs.Console
import Mathlib.Data.List.Basic
import Mathlib.Data.List.Induction

/-!
# The console over any sequence of calls

* `agrees_after`: what a console says and has recorded after any sequence of reads, looks and
  writes, read off the sequence. A console with any script and any failure plan delivers the bytes
  of the script in order and then the end of it, refuses the write calls that the plan was told to
  refuse, and keeps what was read and what was written without refusal.

The console that a sequence of calls leads to can be written down at once (`reference`): each call
takes the one of the calls before it to the one of the calls with it (`consume_reference`,
`write_reference`). Every statement is read off it.
-/

namespace Bench65

namespace FailurePlan

/-! ### Plans -/

/-- What a plan can be told. -/
inductive Rule where
  /-- To refuse one call. -/
  | only (call : Nat)
  /-- To refuse every call from one on. -/
  | since (call : Nat)

/-- A call is to be refused by a rule. -/
def Rule.Names (call : Nat) : Rule → Prop
  | only i => call = i
  | since i => i ≤ call

instance (call : Nat) : DecidablePred (Rule.Names call)
  | .only i => inferInstanceAs (Decidable (call = i))
  | .since i => inferInstanceAs (Decidable (i ≤ call))

/-- The plan under which also the calls named by a rule fail. -/
def tell (plan : FailurePlan) : Rule → FailurePlan
  | .only call => plan.withCall call
  | .since call => plan.withStart call

/-- The plan told some rules, one after the other. -/
def ofRules (rules : List Rule) : FailurePlan :=
  rules.foldl tell none

theorem fails_tell (plan : FailurePlan) (rule : Rule) (call : Nat) :
    (plan.tell rule).fails call = true ↔ plan.fails call = true ∨ rule.Names call := by
  cases rule with
  | only i => simp [tell, withCall, fails, Rule.Names, or_comm, or_assoc]
  | since i =>
    cases hstart : plan.start with
    | none => simp [tell, withStart, fails, Rule.Names, hstart]
    | some first =>
      have hmin : min first i ≤ call ↔ first ≤ call ∨ i ≤ call := by omega
      simp [tell, withStart, fails, Rule.Names, hstart, hmin, or_assoc]

/-- The order in which a plan was told its rules does not matter. -/
theorem fails_ofRules (rules : List Rule) (call : Nat) :
    (ofRules rules).fails call = true ↔ ∃ rule ∈ rules, rule.Names call := by
  have hfold : ∀ plan : FailurePlan, (rules.foldl tell plan).fails call = true ↔
      plan.fails call = true ∨ ∃ rule ∈ rules, rule.Names call := by
    induction rules with
    | nil => simp
    | cons rule rules ih =>
      intro plan
      simp only [List.foldl_cons, ih, fails_tell, or_assoc, List.mem_cons, exists_eq_or_imp]
  rw [ofRules, hfold]
  simp [none, fails]

end FailurePlan

namespace Console

open FailurePlan (Rule)

/-! ### Sequences of calls -/

/-- A call made to a console. -/
inductive Operation where
  | consume (step : Nat)
  | peek
  | write (step : Nat) (stream : Stream) (bytes : List UInt8)

/-- The console after a call. -/
def perform (c : Console) : Operation → Console
  | .consume step => (c.consume step).2
  | .peek => c
  | .write step stream bytes => (c.write step stream bytes).2

/-- The console after some calls. -/
def after (c : Console) (ops : List Operation) : Console :=
  ops.foldl perform c

/-- The steps at which a byte was asked for. -/
def readSteps (ops : List Operation) : List Nat :=
  ops.filterMap fun
    | .consume step => some step
    | _ => none

/-- What was to be written. -/
def writes (ops : List Operation) : List OutputEvent :=
  ops.filterMap fun
    | .write step stream bytes => some ⟨step, stream, bytes⟩
    | _ => none

/-- What was to be written by the calls that no rule names. -/
def accepted (rules : List Rule) (ops : List Operation) : List OutputEvent :=
  ((writes ops).zipIdx.filter fun e => ¬ ∃ rule ∈ rules, rule.Names e.2).map Prod.fst

/-- The console that some calls lead to. -/
def reference (script : List UInt8) (rules : List Rule) (ops : List Operation) : Console where
  remaining := script.drop (readSteps ops).length
  plan := .ofRules rules
  writeCalls := (writes ops).length
  transcript :=
    ⟨((accepted rules ops).filter (·.bytes ≠ [])).toArray,
      ((readSteps ops).zipWith InputEvent.mk script).toArray⟩

variable {script : List UInt8} {rules : List Rule} {ops : List Operation}

/-! ### Reads -/

theorem accepted_consume (step : Nat) :
    accepted rules (ops ++ [.consume step]) = accepted rules ops := by
  simp [accepted, writes]

theorem zipWith_mk_append (steps : List Nat) (step : Nat) (script : List UInt8) :
    (steps ++ [step]).zipWith InputEvent.mk script =
      steps.zipWith InputEvent.mk script ++
        ((script.drop steps.length).take 1).map (InputEvent.mk step) := by
  induction steps generalizing script with
  | nil =>
    cases script with
    | nil => rfl
    | cons b rest => rfl
  | cons s steps ih =>
    cases script with
    | nil => rfl
    | cons b rest =>
      simp only [List.cons_append, List.zipWith_cons_cons, List.length_cons, List.drop_succ_cons]
      rw [ih]

/-- A read delivers the byte of the script whose turn it is, if there is one. -/
theorem consume_reference (step : Nat) :
    (reference script rules ops).consume step =
      (script[(readSteps ops).length]?, reference script rules (ops ++ [.consume step])) := by
  have hsteps : readSteps (ops ++ [.consume step]) = readSteps ops ++ [step] := by
    simp [readSteps]
  have hwrites : writes (ops ++ [.consume step]) = writes ops := by
    simp [writes]
  rw [consume_eq]
  apply Prod.ext
  · exact List.head?_drop
  · show (reference script rules ops).read step 1 = _
    rw [read, reference, reference, hsteps, hwrites, accepted_consume, zipWith_mk_append,
      List.length_append, List.drop_drop, List.append_toArray]
    rfl

/-! ### Writes -/

theorem writes_write (step : Nat) (stream : Stream) (bytes : List UInt8) :
    writes (ops ++ [.write step stream bytes]) = writes ops ++ [⟨step, stream, bytes⟩] := by
  simp [writes]

theorem accepted_write (step : Nat) (stream : Stream) (bytes : List UInt8) :
    accepted rules (ops ++ [.write step stream bytes]) =
      accepted rules ops ++
        if ∃ rule ∈ rules, rule.Names (writes ops).length then [] else [⟨step, stream, bytes⟩] := by
  rw [accepted, accepted, writes_write, List.zipIdx_append, List.filter_append, List.map_append,
    Nat.zero_add, List.zipIdx_singleton]
  congr 1
  by_cases hnamed : ∃ rule ∈ rules, rule.Names (writes ops).length
  · rw [if_pos hnamed, List.filter_cons_of_neg]
    · rfl
    · simpa using hnamed
  · rw [if_neg hnamed, List.filter_cons_of_pos]
    · rfl
    · simpa using hnamed

/-- A write is refused if a rule names the number of the writes before it, and otherwise accepted
as a whole. -/
theorem write_reference (step : Nat) (stream : Stream) (bytes : List UInt8) :
    (reference script rules ops).write step stream bytes =
      (if ∃ rule ∈ rules, rule.Names (writes ops).length then .error ⟨(writes ops).length⟩
        else .ok bytes.length,
        reference script rules (ops ++ [.write step stream bytes])) := by
  have hsteps : readSteps (ops ++ [.write step stream bytes]) = readSteps ops := by
    simp [readSteps]
  have hfails : (reference script rules ops).plan.fails (reference script rules ops).writeCalls =
      true ↔ ∃ rule ∈ rules, rule.Names (writes ops).length :=
    FailurePlan.fails_ofRules rules (writes ops).length
  -- a write that is refused records nothing, and neither does one of no bytes
  have hrecord : (reference script rules ops).record step stream bytes =
      List.filter (·.bytes ≠ [])
        (if ∃ rule ∈ rules, rule.Names (writes ops).length then []
        else [⟨step, stream, bytes⟩]) := by
    unfold record
    by_cases hnamed : ∃ rule ∈ rules, rule.Names (writes ops).length
    · rw [if_pos (hfails.mpr hnamed), if_pos hnamed, List.filter_nil]
    · rw [if_neg (hfails.not.mpr hnamed), if_neg hnamed]
      cases bytes with
      | nil => rfl
      | cons b rest => rfl
  rw [write_eq, hrecord]
  apply Prod.ext
  · show (reference script rules ops).outcome bytes = _
    simp only [outcome, hfails]
    rfl
  · simp only [reference, hsteps, writes_write, accepted_write, List.length_append,
      List.length_singleton, List.filter_append, List.append_toArray]

/-! ### Any sequence -/

/-- The calls lead where the reference says. -/
theorem after_eq_reference (script : List UInt8) (rules : List Rule) (ops : List Operation) :
    (start script (.ofRules rules)).after ops = reference script rules ops := by
  -- by induction from the last call, each call an equation of the reference
  induction ops using List.reverseRecOn with
  | nil => rfl
  | append_singleton ops op ih =>
    have hlast : (start script (.ofRules rules)).after (ops ++ [op]) =
        (reference script rules ops).perform op := by
      rw [← ih, after, List.foldl_append]
      rfl
    rw [hlast]
    cases op with
    | consume step => rw [perform, consume_reference]
    | peek => simp [perform, reference, readSteps, writes, accepted]
    | write step stream bytes => rw [perform, write_reference]

/-! ### What a console keeps -/

/-- The console `c`, reached by the calls `ops` over a script and a plan that was told some rules,
answers the next call and has kept of the calls made what it should. -/
structure Agrees (script : List UInt8) (rules : List Rule) (ops : List Operation) (c : Console) :
    Prop where
  script_eq : c.transcript.consumed ++ c.remaining = script
  consume_eq : ∀ step, (c.consume step).1 = script[(readSteps ops).length]?
  consume_end : script.length ≤ (readSteps ops).length → ∀ step, c.consume step = (none, c)
  peek_eq : ∀ step, c.peek = (c.consume step).1
  peek_keeps : c.perform .peek = c
  write_eq : ∀ step stream bytes, (c.write step stream bytes).1 =
    if ∃ rule ∈ rules, rule.Names (writes ops).length then .error ⟨(writes ops).length⟩
    else .ok bytes.length
  stdout_eq : c.transcript.stdout =
    ((accepted rules ops).filter (·.stream = .stdout)).flatMap (·.bytes)
  stderr_eq : c.transcript.stderr =
    ((accepted rules ops).filter (·.stream = .stderr)).flatMap (·.bytes)
  outputs_eq : c.transcript.outputs.toList = (accepted rules ops).filter (·.bytes ≠ [])
  inputs_eq : c.transcript.inputs.toList = (readSteps ops).zipWith InputEvent.mk script

theorem map_byte_zipWith_mk (steps : List Nat) (script : List UInt8) :
    (steps.zipWith InputEvent.mk script).map (·.byte) = script.take steps.length := by
  induction steps generalizing script with
  | nil => rfl
  | cons step steps ih =>
    cases script with
    | nil => rfl
    | cons b rest => simp [ih]

/-- Empty writes do not show in what was written. -/
theorem flatMap_bytes_filter (events : List OutputEvent) :
    (events.filter (·.bytes ≠ [])).flatMap (·.bytes) = events.flatMap (·.bytes) := by
  induction events with
  | nil => rfl
  | cons e events ih =>
    by_cases hempty : e.bytes = []
    · simp [hempty, ← ih]
    · simp [hempty, ← ih]

theorem stream_reference (s : Stream) :
    (reference script rules ops).transcript.stream s =
      ((accepted rules ops).filter (·.stream = s)).flatMap (·.bytes) := by
  show (((accepted rules ops).filter (·.bytes ≠ [])).filter (·.stream = s)).flatMap (·.bytes) = _
  rw [List.filter_comm, flatMap_bytes_filter]

/-- **The console over any sequence of calls.** Whatever the script and however the failure plan
was built, after any reads, looks and writes the console has delivered the beginning of the script
and delivers the rest of it and then its end; it refuses the next write exactly if a rule names its
number; and it has recorded what was read, and what was written without refusal, in order. -/
theorem agrees_after (script : List UInt8) (rules : List Rule) (ops : List Operation) :
    ((start script (.ofRules rules)).after ops).Agrees script rules ops := by
  rw [after_eq_reference]
  have hconsume : ∀ step, ((reference script rules ops).consume step).1 =
      script[(readSteps ops).length]? := by
    intro step
    rw [consume_reference]
  have hpeek : ∀ step, (reference script rules ops).peek =
      ((reference script rules ops).consume step).1 := by
    intro step
    rw [Console.consume_eq]
  exact {
    script_eq := by
      show ((readSteps ops).zipWith InputEvent.mk script).map (·.byte) ++
        script.drop (readSteps ops).length = script
      rw [map_byte_zipWith_mk, List.take_append_drop]
    consume_eq := hconsume
    consume_end := by
      intro hend step
      have hnil : (reference script rules ops).remaining = [] := List.drop_eq_nil_of_le hend
      rw [Console.consume_eq, peek, read_of_remaining_eq_nil hnil, hnil]
      rfl
    peek_eq := hpeek
    peek_keeps := rfl
    write_eq := by
      intro step stream bytes
      rw [write_reference]
    stdout_eq := stream_reference .stdout
    stderr_eq := stream_reference .stderr
    outputs_eq := rfl
    inputs_eq := rfl }

/-- Of five writes the second fails, and from the fourth on all do. -/
example : ((start [] (.ofRules [.only 1, .since 3])).after
    [.write 1 .stdout [97], .write 2 .stdout [98], .write 3 .stdout [99], .write 4 .stdout [100],
      .write 5 .stdout [101]]).transcript.stdout = [97, 99] := by
  decide

end Console

end Bench65
