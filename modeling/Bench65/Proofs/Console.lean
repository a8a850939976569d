import Bench65.Console

/-!
# What a transcript keeps

A transcript only grows, and what is added carries the step at which it happened
(`Transcript.Extends`). `Transcript.upTo` is the part of a transcript that a run had left behind at
an earlier step: later events do not change it (`Transcript.Extends.upTo_of_lt`).

`Console.read` is the reading of several bytes at once, to which single reads add up.
`Console.write_eq` takes a write apart: what becomes of it, and the events that it leaves.
-/

namespace Bench65

namespace Transcript

section Events

variable {α : Type} {stepOf : α → Nat} {events later : Array α} {step limit : Nat}

theorem filter_upTo_eq_self_of_le {a b : Nat} (hab : a ≤ b)
    (h : events.filter (stepOf · ≤ a) = events) : events.filter (stepOf · ≤ b) = events := by
  rw [Array.filter_eq_self] at h ⊢
  intro e he
  exact decide_eq_true (Nat.le_trans (of_decide_eq_true (h e he)) hab)

theorem filter_append_of_lt (hlater : ∀ e ∈ later, stepOf e = step) (hlt : limit < step) :
    (events ++ later).filter (stepOf · ≤ limit) = events.filter (stepOf · ≤ limit) := by
  have hnone : later.filter (stepOf · ≤ limit) = #[] := by
    rw [Array.filter_eq_empty_iff]
    intro e he
    rw [hlater e he, decide_eq_true_iff]
    exact Nat.not_le.mpr hlt
  rw [Array.filter_append Array.size_append, hnone, Array.append_empty]

theorem filter_append_eq_self (hlater : ∀ e ∈ later, stepOf e = step) (hle : limit ≤ step)
    (h : events.filter (stepOf · ≤ limit) = events) :
    (events ++ later).filter (stepOf · ≤ step) = events ++ later := by
  have hall : later.filter (stepOf · ≤ step) = later := by
    rw [Array.filter_eq_self]
    intro e he
    exact decide_eq_true (Nat.le_of_eq (hlater e he))
  rw [Array.filter_append Array.size_append, filter_upTo_eq_self_of_le hle h, hall]

end Events

variable {t u : Transcript} {step limit : Nat}

/-! ### The part up to a step -/

/-- The events of a transcript up to a step. -/
def upTo (t : Transcript) (limit : Nat) : Transcript :=
  ⟨t.outputs.filter (·.step ≤ limit), t.inputs.filter (·.step ≤ limit)⟩

theorem upTo_eq_self_iff : t.upTo limit = t ↔
    t.outputs.filter (·.step ≤ limit) = t.outputs ∧
      t.inputs.filter (·.step ≤ limit) = t.inputs := by
  obtain ⟨outputs, inputs⟩ := t
  rw [upTo, mk.injEq]

/-! ### Extensions -/

/-- The second transcript is the first one followed by events of one step. -/
def Extends (t : Transcript) (step : Nat) (u : Transcript) : Prop :=
  ∃ outputs inputs, u = ⟨t.outputs ++ outputs, t.inputs ++ inputs⟩ ∧
    (∀ e ∈ outputs, e.step = step) ∧ ∀ e ∈ inputs, e.step = step

theorem Extends.refl (t : Transcript) (step : Nat) : t.Extends step t := by
  refine ⟨#[], #[], ?_, ?_, ?_⟩
  · rw [Array.append_empty, Array.append_empty]
  · exact fun e he => absurd he (Array.not_mem_empty e)
  · exact fun e he => absurd he (Array.not_mem_empty e)

/-- Events of a later step are not seen up to an earlier one. -/
theorem Extends.upTo_of_lt (h : t.Extends step u) (hlt : limit < step) :
    u.upTo limit = t.upTo limit := by
  obtain ⟨outputs, inputs, rfl, ho, hi⟩ := h
  rw [upTo, upTo, filter_append_of_lt ho hlt, filter_append_of_lt hi hlt]

/-- A transcript has no event after the step of its last extension. -/
theorem Extends.upTo_eq_self (h : t.Extends step u) (hle : limit ≤ step)
    (ht : t.upTo limit = t) : u.upTo step = u := by
  obtain ⟨outputs, inputs, rfl, ho, hi⟩ := h
  obtain ⟨hto, hti⟩ := upTo_eq_self_iff.mp ht
  rw [upTo, filter_append_eq_self ho hle hto, filter_append_eq_self hi hle hti]

end Transcript

namespace Console

/-! ### Writing -/

/-- What becomes of the next write. -/
def outcome (c : Console) (bytes : List UInt8) : Except WriteFailure Nat :=
  if c.plan.fails c.writeCalls then .error ⟨c.writeCalls⟩ else .ok bytes.length

/-- The event that the next write leaves, if it is neither refused nor empty. -/
def record (c : Console) (step : Nat) (stream : Stream) (bytes : List UInt8) :
    List OutputEvent :=
  if c.plan.fails c.writeCalls then [] else if bytes.isEmpty then [] else [⟨step, stream, bytes⟩]

theorem write_eq (c : Console) (step : Nat) (stream : Stream) (bytes : List UInt8) :
    c.write step stream bytes =
      (c.outcome bytes,
        { c with
          writeCalls := c.writeCalls + 1
          transcript := { c.transcript with
            outputs := c.transcript.outputs ++ (c.record step stream bytes).toArray } }) := by
  rw [write, outcome, record]
  by_cases hfail : c.plan.fails c.writeCalls = true
  · rw [if_pos hfail, if_pos hfail, if_pos hfail, Array.append_empty]
  rw [if_neg hfail, if_neg hfail, if_neg hfail]
  cases bytes with
  | nil => rw [if_pos List.isEmpty_nil, if_pos List.isEmpty_nil, Array.append_empty]; rfl
  | cons b rest =>
    have hsome : ¬ (b :: rest).isEmpty = true := by simp
    rw [if_neg hsome, if_neg hsome, Array.append_singleton]

/-- A write leaves at most one event. -/
theorem extends_write (c : Console) (step : Nat) (stream : Stream) (bytes : List UInt8) :
    c.transcript.Extends step (c.write step stream bytes).2.transcript := by
  rw [write]
  by_cases hfail : c.plan.fails c.writeCalls = true
  · rw [if_pos hfail]
    exact .refl _ _
  rw [if_neg hfail]
  by_cases hempty : bytes.isEmpty = true
  · rw [if_pos hempty]
    exact .refl _ _
  rw [if_neg hempty]
  -- only a write of some bytes that is not refused leaves an event
  refine ⟨#[⟨step, stream, bytes⟩], #[], ?_, ?_, ?_⟩
  · rw [Array.append_singleton, Array.append_empty]
  · intro e he
    rw [Array.mem_singleton.mp he]
  · exact fun e he => absurd he (Array.not_mem_empty e)

section Streams

variable (c : Console) (step : Nat) (bytes : List UInt8) {s t : Stream}

theorem outputs_write (s : Stream) :
    (c.write step s bytes).2.transcript.outputs.toList =
      c.transcript.outputs.toList ++ c.record step s bytes := by
  rw [write_eq]
  exact Array.toList_append

/-- A write that is not refused adds its bytes to its stream. -/
theorem stream_write_self (h : ¬ c.plan.fails c.writeCalls = true) :
    (c.write step s bytes).2.transcript.stream s = c.transcript.stream s ++ bytes := by
  unfold Transcript.stream
  rw [outputs_write, List.filter_append, List.flatMap_append, record, if_neg h]
  cases bytes with
  | nil => rfl
  | cons b rest => simp

/-- It adds nothing to another stream. -/
theorem stream_write_of_ne (h : s ≠ t) :
    (c.write step s bytes).2.transcript.stream t = c.transcript.stream t := by
  -- the event, if there is one, is of the stream written to
  have hnone : (c.record step s bytes).filter (·.stream = t) = [] := by
    unfold record
    split
    · rfl
    · split
      · rfl
      · simp [h]
  unfold Transcript.stream
  rw [outputs_write, List.filter_append, hnone, List.append_nil]

theorem transcript_write_of_fails (h : c.plan.fails c.writeCalls = true) (s : Stream) :
    (c.write step s bytes).2.transcript = c.transcript := by
  unfold write
  rw [if_pos h]

end Streams

/-! ### Reading -/

/-- The console after some bytes have been read at one step; no more are read than are left. -/
def read (c : Console) (step count : Nat) : Console :=
  { c with
    remaining := c.remaining.drop count
    transcript := { c.transcript with
      inputs := c.transcript.inputs ++
        ((c.remaining.take count).map (InputEvent.mk step)).toArray } }

theorem read_zero (c : Console) (step : Nat) : c.read step 0 = c := by
  rw [read, List.drop_zero, List.take_zero, List.map_nil, Array.append_empty]

theorem read_of_remaining_eq_nil {c : Console} (h : c.remaining = []) (step count : Nat) :
    c.read step count = c := by
  rw [read, h, List.drop_nil, List.take_nil, List.map_nil, Array.append_empty, ← h]

theorem consume_eq (c : Console) (step : Nat) : c.consume step = (c.peek, c.read step 1) := by
  cases h : c.remaining with
  | nil => rw [consume, h, peek, h, read_of_remaining_eq_nil h]; rfl
  | cons b rest =>
    rw [consume, h, peek, h, read, h]
    rfl

/-- Reading one byte and then others is reading them all. -/
theorem read_read (c : Console) (step m n : Nat) :
    (c.read step m).read step n = c.read step (m + n) := by
  simp only [read, mk.injEq, Transcript.mk.injEq, true_and, List.drop_drop]
  rw [Array.append_assoc, List.append_toArray (List.map _ _), ← List.map_append, ← List.take_add]

theorem extends_read (c : Console) (step count : Nat) :
    c.transcript.Extends step (c.read step count).transcript := by
  refine ⟨#[], ((c.remaining.take count).map (InputEvent.mk step)).toArray, ?_, ?_, ?_⟩
  · rw [Array.append_empty]
    rfl
  · exact fun e he => absurd he (Array.not_mem_empty e)
  · intro e he
    obtain ⟨b, -, rfl⟩ := List.mem_map.mp (List.mem_toArray.mp he)
    rfl

end Console

end Bench65
