import Bench65.Proofs.Call
import Bench65.Proofs.Lookup
import Mathlib.Algebra.BigOperators.Group.List.Basic
import Mathlib.Algebra.GroupWithZero.Nat
import Mathlib.Data.Nat.Count

/-!
# What the counters count

`CallCounts.total` is the sum of the call counts, which one more call raises by one
(`CallCounts.total_add`). `Console.Tallied` ties the counters of what was written and read to the
console's transcript; a call's use of the console keeps them so (`Call.Uses.tallied`), and adds at
most one to the write calls (`Call.Uses.writeCalls_le`).
-/

namespace Bench65

namespace CallCounts

/-! ### Calls -/

/-- The number of all calls. -/
def total (c : CallCounts) : Nat :=
  (c.toList.map Prod.snd).sum

theorem lookup_increment (r s : Routine) (entries : List (Routine × Nat)) :
    ((increment r entries).lookup s).getD 0 =
      (entries.lookup s).getD 0 + if s = r then 1 else 0 := by
  induction entries with
  | nil =>
    rw [increment, lookup_cons_eq]
    by_cases h : s = r
    · simp [h]
    · simp [h]
  | cons e rest ih =>
    obtain ⟨t, n⟩ := e
    rw [increment]
    by_cases hr : r = t
    · subst hr
      rw [if_pos rfl, lookup_cons_eq, lookup_cons_eq]
      by_cases hs : s = r
      · simp [hs]
      · simp [hs]
    · rw [if_neg hr, lookup_cons_eq, lookup_cons_eq]
      by_cases hs : s = t
      · -- the entry found is not the one that grows
        subst hs
        simp [Ne.symm hr]
      · rw [if_neg hs, if_neg hs, ih]

/-- A call counts for its routine and no other. -/
theorem count_add (c : CallCounts) (r s : Routine) :
    (c.add r).count s = c.count s + if s = r then 1 else 0 :=
  lookup_increment r s c.entries

theorem total_eq (c : CallCounts) : c.total = (Routine.all.map c.count).sum := by
  unfold total toList
  -- a routine that was never called has no entry and counts for nothing
  induction Routine.all with
  | nil => rfl
  | cons r rest ih =>
    rw [List.filterMap_cons, List.map_cons, List.sum_cons, ← ih, count]
    cases c.entries.lookup r with
    | none => exact (Nat.zero_add _).symm
    | some n => rfl

theorem total_add (c : CallCounts) (r : Routine) : (c.add r).total = c.total + 1 := by
  have hone : (Routine.all.map fun s => if s = r then 1 else 0).sum = 1 := by
    cases r with
    | _ => rfl
  have hcount : (c.add r).count = fun s => c.count s + if s = r then 1 else 0 :=
    funext (c.count_add r)
  rw [total_eq, total_eq, hcount, List.sum_map_add, hone]

end CallCounts

/-! ### Reading and writing -/

namespace Console

variable {c : Console} {k : Counters} {limit step : Nat}

/-- The counters agree with a console whose events happened in the steps up to a limit, outputs in
different steps. -/
structure Tallied (c : Console) (k : Counters) (limit : Nat) : Prop where
  bytesWritten_eq : k.bytesWritten = (c.transcript.outputs.toList.map (·.bytes.length)).sum
  bytesRead_eq : k.bytesRead = c.transcript.inputs.size
  writeFailures_eq : k.writeFailures = Nat.count (fun i => c.plan.fails i = true) c.writeCalls
  outputs_sorted : (c.transcript.outputs.toList.map (·.step)).Pairwise (· < ·)
  inputs_sorted : (c.transcript.inputs.toList.map (·.step)).Pairwise (· ≤ ·)
  outputs_step : ∀ e ∈ c.transcript.outputs, 1 ≤ e.step ∧ e.step ≤ limit
  inputs_step : ∀ e ∈ c.transcript.inputs, 1 ≤ e.step ∧ e.step ≤ limit

theorem tallied_start (script : List UInt8) (plan : FailurePlan) :
    (start script plan).Tallied Counters.zero 0 where
  bytesWritten_eq := rfl
  bytesRead_eq := rfl
  writeFailures_eq := rfl
  outputs_sorted := .nil
  inputs_sorted := .nil
  outputs_step := fun e he => absurd he (Array.not_mem_empty e)
  inputs_step := fun e he => absurd he (Array.not_mem_empty e)

theorem Tallied.mono (h : c.Tallied k limit) (hle : limit ≤ step) : c.Tallied k step :=
  { h with
    outputs_step := fun e he => ⟨(h.outputs_step e he).1, (h.outputs_step e he).2.trans hle⟩
    inputs_step := fun e he => ⟨(h.inputs_step e he).1, (h.inputs_step e he).2.trans hle⟩ }

theorem Tallied.write (h : c.Tallied k limit) (hlt : limit < step) (stream : Stream)
    (bytes : List UInt8) :
    (c.write step stream bytes).2.Tallied (k.recordWrite (c.write step stream bytes).1) step := by
  have hstep := h.mono hlt.le
  unfold Console.write
  by_cases hfail : c.plan.fails c.writeCalls = true
  · rw [if_pos hfail]
    refine { hstep with writeFailures_eq := ?_ }
    show k.writeFailures + 1 = Nat.count _ (c.writeCalls + 1)
    rw [Nat.count_succ, if_pos hfail, h.writeFailures_eq]
  have hcount : Nat.count (fun i => c.plan.fails i = true) (c.writeCalls + 1) =
      Nat.count (fun i => c.plan.fails i = true) c.writeCalls := by
    rw [Nat.count_succ, if_neg hfail, Nat.add_zero]
  rw [if_neg hfail]
  by_cases hempty : bytes.isEmpty = true
  · rw [if_pos hempty]
    exact { hstep with writeFailures_eq := h.writeFailures_eq.trans hcount.symm }
  rw [if_neg hempty]
  refine { hstep with
    bytesWritten_eq := ?_
    writeFailures_eq := h.writeFailures_eq.trans hcount.symm
    outputs_sorted := ?_
    outputs_step := ?_ }
  · show k.bytesWritten + bytes.length = _
    rw [h.bytesWritten_eq]
    simp
  · simp only [Array.toList_push, List.map_append, List.map_cons, List.map_nil]
    refine List.pairwise_append.mpr ⟨h.outputs_sorted, List.pairwise_singleton _ _, ?_⟩
    -- all earlier outputs happened in earlier steps
    intro s hs t ht
    obtain ⟨e, he, rfl⟩ := List.mem_map.mp hs
    rw [List.mem_singleton.mp ht]
    exact (h.outputs_step e (Array.mem_toList_iff.mp he)).2.trans_lt hlt
  · intro e he
    rcases Array.mem_push.mp he with he | rfl
    · exact hstep.outputs_step e he
    · exact ⟨Nat.one_le_of_lt hlt, Nat.le_refl step⟩

theorem Tallied.read (h : c.Tallied k limit) (hlt : limit < step) (n : Nat) :
    (c.read step n).Tallied (k.recordRead (c.remaining.take n).length) step := by
  have hstep := h.mono hlt.le
  refine { hstep with
    bytesRead_eq := ?_
    inputs_sorted := ?_
    inputs_step := ?_ }
  · show k.bytesRead + _ = _
    simp only [h.bytesRead_eq, Console.read, Array.size_append, List.size_toArray,
      List.length_map]
  · unfold Console.read
    simp only [Array.toList_append, List.map_append, List.map_map]
    refine List.pairwise_append.mpr ⟨h.inputs_sorted, ?_, ?_⟩
    · exact List.pairwise_map.mpr (List.pairwise_of_forall fun _ _ => Nat.le_refl step)
    · intro s hs t ht
      obtain ⟨e, he, rfl⟩ := List.mem_map.mp hs
      obtain ⟨b, -, rfl⟩ := List.mem_map.mp ht
      exact ((h.inputs_step e (Array.mem_toList_iff.mp he)).2.trans_lt hlt).le
  · intro e he
    rcases Array.mem_append.mp he with he | he
    · exact hstep.inputs_step e he
    · obtain ⟨b, -, rfl⟩ := List.mem_map.mp (List.mem_toArray.mp he)
      exact ⟨Nat.one_le_of_lt hlt, Nat.le_refl step⟩

/-- A write counts as a call and leaves nothing but an event. -/
theorem write_snd (c : Console) (step : Nat) (stream : Stream) (bytes : List UInt8) :
    (c.write step stream bytes).2 =
      { c with
        writeCalls := c.writeCalls + 1
        transcript := (c.write step stream bytes).2.transcript } := by
  rw [write_eq]

end Console

namespace Call

variable {c c' : Call} {limit : Nat}

theorem Uses.tallied (huses : c.Uses c') (h : c.console.Tallied c.counters limit)
    (hlt : limit < c.step) : c'.console.Tallied c'.counters c.step := by
  cases huses with
  | silent hconsole hcounters =>
    rw [hconsole, hcounters]
    exact h.mono hlt.le
  | writes stream bytes hconsole hcounters =>
    rw [hconsole, hcounters]
    exact h.write hlt stream bytes
  | reads n hconsole hcounters =>
    rw [hconsole, hcounters]
    exact h.read hlt n

/-- A call writes at most once. -/
theorem Uses.writeCalls_le (huses : c.Uses c') :
    c.console.writeCalls ≤ c'.console.writeCalls ∧
      c'.console.writeCalls ≤ c.console.writeCalls + 1 := by
  cases huses with
  | silent hconsole hcounters =>
    rw [hconsole]
    exact ⟨Nat.le_refl _, Nat.le_succ _⟩
  | writes stream bytes hconsole hcounters =>
    rw [hconsole, Console.write_snd]
    exact ⟨Nat.le_succ _, Nat.le_refl _⟩
  | reads n hconsole hcounters =>
    rw [hconsole]
    exact ⟨Nat.le_refl _, Nat.le_succ _⟩

theorem Uses.plan_eq (huses : c.Uses c') : c'.console.plan = c.console.plan := by
  cases huses with
  | silent hconsole hcounters => rw [hconsole]
  | writes stream bytes hconsole hcounters => rw [hconsole, Console.write_snd]
  | reads n hconsole hcounters => rw [hconsole, Console.read]

/-- The calls counted stay as they were when the call was made. -/
theorem Uses.calls_eq (huses : c.Uses c') :
    c'.counters.traps = c.counters.traps ∧ c'.counters.calls = c.counters.calls := by
  cases huses with
  | silent hconsole hcounters =>
    rw [hcounters]
    exact ⟨rfl, rfl⟩
  | writes stream bytes hconsole hcounters =>
    rw [hcounters]
    cases (c.console.write c.step stream bytes).1 with
    | _ => exact ⟨rfl, rfl⟩
  | reads n hconsole hcounters =>
    rw [hcounters]
    exact ⟨rfl, rfl⟩

end Call

end Bench65
