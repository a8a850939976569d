import Bench65.Proofs.Call.Console
import Mathlib.Algebra.BigOperators.Group.List.Basic
import Mathlib.Algebra.GroupWithZero.Nat

/-!
# The results of calls that move bytes

`printf`, `write` and `read` return how many bytes they moved, as a word, and `-1` if they fail
(`transfer_specification`). Whether a call fails (`Call.Fails`) and how many bytes it moved, as the
transcript has it, is said without looking at the result.

A C program takes the word for a signed number. That it can tell success from failure by the sign,
and on success has the number (`Distinguishes`), is true exactly of the calls that fail or move
fewer than `$8000` bytes.
-/

namespace Bench65

/-! ### Bytes moved -/

namespace Transcript

/-- The number of bytes written and read. -/
def moved (t : Transcript) : Nat :=
  (t.outputs.toList.map (·.bytes.length)).sum + t.inputs.size

end Transcript

namespace Console

variable (c : Console) (step : Nat)

theorem moved_write_of_fails (h : c.plan.fails c.writeCalls = true) (stream : Stream)
    (bytes : List UInt8) : (c.write step stream bytes).2.transcript.moved = c.transcript.moved := by
  unfold write
  rw [if_pos h]

theorem moved_write (h : ¬ c.plan.fails c.writeCalls = true) (stream : Stream)
    (bytes : List UInt8) :
    (c.write step stream bytes).2.transcript.moved = c.transcript.moved + bytes.length := by
  unfold write
  rw [if_neg h]
  cases bytes with
  | nil => rfl
  | cons b rest =>
    show ((c.transcript.outputs.push ⟨step, stream, b :: rest⟩).toList.map _).sum + _ = _
    rw [Array.toList_push, List.map_append, List.sum_append, Nat.add_right_comm]
    rfl

theorem moved_read (count : Nat) :
    (c.read step count).transcript.moved =
      c.transcript.moved + (c.remaining.take count).length := by
  have hsize : ((c.remaining.take count).map (InputEvent.mk step)).toArray.size =
      (c.remaining.take count).length := by
    rw [List.size_toArray, List.length_map]
  unfold read Transcript.moved
  dsimp only
  rw [Array.size_append, hsize, Nat.add_assoc]

end Console

/-! ### Success and failure -/

namespace Call

/-- The descriptor that a hook is called with, the second word on the C stack. -/
def descriptor (c : Call) : UInt16 :=
  c.pop.2.pop.1

/-- A call that moves bytes fails: its write is refused, or its descriptor is not served. -/
def Fails (c : Call) : Routine → Prop
  | .printf => c.console.plan.fails c.console.writeCalls = true
  | .hostWrite =>
    (c.descriptor ≠ 1 ∧ c.descriptor ≠ 2) ∨ c.console.plan.fails c.console.writeCalls = true
  | .hostRead => c.descriptor ≠ 0
  | _ => False

/-- The second call is what the first one has become by moving bytes. -/
structure Transfers (fails : Prop) (c c' : Call) (n : Nat) : Prop where
  /-- The transcript tells the number of bytes. -/
  moved : c'.console.transcript.moved = c.console.transcript.moved + n
  /-- A call that fails moves nothing and returns `-1`. -/
  failed : fails → n = 0 ∧ c'.registers.ax = minusOne
  /-- A call that succeeds returns the number, modulo the size of a word. -/
  succeeded : ¬ fails → c'.registers.ax = UInt16.ofNat n

variable {c c' : Call}

/-- Counting the call moves nothing. -/
theorem Transfers.of_counted {fails : Prop} {n : Nat} {counters : Counters}
    (h : Transfers fails { c with counters } c' n) : Transfers fails c c' n :=
  ⟨h.moved, h.failed, h.succeeded⟩

theorem transfers_goBack {fails : Prop} (h : fails) (m : Memory) :
    Transfers fails c ({ c with memory := m }.goBackWith minusOne).2 0 :=
  ⟨rfl, fun _ => ⟨rfl, Registers.ax_setAX _ _⟩, absurd h⟩

/-- A write moves all its bytes or, refused, none. -/
theorem transfers_write (m : Memory) (stream : Stream) (bytes : List UInt8) :
    ∃ n, Transfers (c.console.plan.fails c.console.writeCalls = true) c
      ({ c with memory := m }.writeAndReturn stream bytes UInt16.ofNat).2 n := by
  rw [writeAndReturn_eq]
  -- a call that is due to fail writes nothing and has no count
  by_cases h : c.console.plan.fails c.console.writeCalls = true
  · have hresult : (c.console.write c.step stream bytes).1.toOption = none := by
      rw [Console.write_eq, Console.outcome, if_pos h]
      rfl
    refine ⟨0, c.console.moved_write_of_fails c.step h stream bytes, fun _ => ⟨rfl, ?_⟩, absurd h⟩
    show (c.registers.setAX ((c.console.write c.step stream bytes).1.toOption.elim _ _)).ax = _
    rw [Registers.ax_setAX, hresult]
    rfl
  · have hresult : (c.console.write c.step stream bytes).1.toOption = some bytes.length := by
      rw [Console.write_eq, Console.outcome, if_neg h]
      rfl
    refine ⟨bytes.length, c.console.moved_write c.step h stream bytes, fun hf => absurd hf h,
      fun _ => ?_⟩
    show (c.registers.setAX ((c.console.write c.step stream bytes).1.toOption.elim _ _)).ax = _
    rw [Registers.ax_setAX, hresult]
    rfl

theorem transfers_readInto {fails : Prop} (h : ¬ fails) (m : Memory) (buffer : UInt16)
    (count : Nat) :
    Transfers fails c ({ c with memory := m }.readInto buffer count).2
      (c.console.remaining.take count).length := by
  rw [readInto_eq]
  exact ⟨c.console.moved_read c.step count, fun hf => absurd hf h, fun _ => Registers.ax_setAX _ _⟩

/-! ### The three routines -/

theorem transfers_printf (h : c.printf = (.ok .goBack, c')) :
    ∃ n, Transfers (c.Fails .printf) c c' n := by
  rw [printf_eq] at h
  split at h
  · cases h
  · split at h
    · cases h
    · rename_i text s _
      obtain ⟨n, hn⟩ := transfers_write (c := c) (VariadicFrame.close _ c.stack s.memory) .stdout
        text
      rw [h] at hn
      exact ⟨n, hn⟩

theorem outputStream?_eq_none_iff (descriptor : UInt16) :
    outputStream? descriptor = none ↔ descriptor ≠ 1 ∧ descriptor ≠ 2 := by
  unfold outputStream?
  by_cases h1 : descriptor = 1
  · simp [h1]
  · by_cases h2 : descriptor = 2 <;> simp [h1, h2]

theorem transfers_hostWrite (c : Call) : ∃ n, Transfers (c.Fails .hostWrite) c c.hostWrite.2 n := by
  rw [hostWrite]
  dsimp only
  cases hstream : outputStream? c.pop.2.pop.1 with
  | none => exact ⟨0, transfers_goBack (.inl ((outputStream?_eq_none_iff _).mp hstream)) _⟩
  | some stream =>
    -- the descriptor has a stream, so only the plan can make the call fail
    have hserved : ¬ (c.descriptor ≠ 1 ∧ c.descriptor ≠ 2) := by
      rw [← outputStream?_eq_none_iff, descriptor, hstream]
      exact Option.some_ne_none stream
    have hfails : c.Fails .hostWrite ↔ c.console.plan.fails c.console.writeCalls = true :=
      ⟨fun h => h.resolve_left hserved, .inr⟩
    rw [hfails]
    exact transfers_write _ stream _

/-- The call with the two fixed arguments of a hook popped. -/
def popped (c : Call) : Call :=
  c.pop.2.pop.2

theorem hostRead_of_ne (h : c.descriptor ≠ 0) : c.hostRead = c.popped.goBackWith minusOne := by
  rw [hostRead_eq_answer, requestRead]
  exact congrArg (Request.answer c) (if_pos h)

theorem hostRead_of_eq (h : c.descriptor = 0) :
    c.hostRead = c.popped.readInto c.pop.1 c.registers.ax.toNat := by
  rw [hostRead_eq_answer, requestRead]
  exact congrArg (Request.answer c) (if_neg (not_not_intro h))

theorem answer_hostRead (c : Call) :
    Routine.hostRead.answer c =
      { c with counters := c.counters.recordCall .hostRead }.hostRead :=
  rfl

theorem hostRead_fst (c : Call) : c.hostRead.1 = .ok .goBack := by
  by_cases h : c.descriptor = 0
  · rw [hostRead_of_eq h, readInto_eq]
    rfl
  · rw [hostRead_of_ne h]
    rfl

theorem transfers_hostRead_of_eq (h : c.descriptor = 0) {n : Nat}
    (hn : (c.console.remaining.take c.registers.ax.toNat).length = n) :
    Transfers (c.Fails .hostRead) c c.hostRead.2 n := by
  rw [hostRead_of_eq h, ← hn]
  exact transfers_readInto (not_not_intro h) _ _ _

theorem transfers_hostRead (c : Call) : ∃ n, Transfers (c.Fails .hostRead) c c.hostRead.2 n := by
  by_cases h : c.descriptor = 0
  · exact ⟨_, transfers_hostRead_of_eq h rfl⟩
  · rw [hostRead_of_ne h]
    exact ⟨0, transfers_goBack h _⟩

/-! ### Results as signed numbers -/

/-- The signed result tells failure by its sign, and is the number of bytes otherwise. -/
def Distinguishes (fails : Prop) (n : Nat) (result : UInt16) : Prop :=
  (signedWord result < 0 ↔ fails) ∧ (¬ fails → signedWord result = n)

theorem Transfers.distinguishes_iff {fails : Prop} {n : Nat} (h : Transfers fails c c' n) :
    Distinguishes fails n c'.registers.ax ↔ fails ∨ n < 0x8000 := by
  constructor
  · rintro ⟨-, hnumber⟩
    by_cases hfails : fails
    · exact .inl hfails
    · have hlt := signedWord_lt c'.registers.ax
      have heq := hnumber hfails
      exact .inr (by omega)
  · intro hcases
    by_cases hfails : fails
    · refine ⟨⟨fun _ => hfails, fun _ => ?_⟩, fun hnot => absurd hfails hnot⟩
      rw [(h.failed hfails).2]
      decide
    · have hn := hcases.resolve_left hfails
      have htoNat : (UInt16.ofNat n).toNat = n :=
        UInt16.toNat_ofNat_of_lt' (Nat.lt_trans hn (by decide))
      have heq : signedWord c'.registers.ax = n := by
        rw [h.succeeded hfails, signedWord_of_toNat_lt (htoNat.symm ▸ hn), htoNat]
      refine ⟨⟨fun hneg => ?_, fun hf => absurd hf hfails⟩, fun _ => heq⟩
      omega

/-- What a call that moves bytes returns, and when the signed result can be trusted. -/
theorem transfer_specification {routine : Routine}
    (hroutine : routine ∈ [.printf, .hostWrite, .hostRead])
    (h : routine.answer c = (.ok .goBack, c')) :
    ∃ n, Transfers (c.Fails routine) c c' n ∧
      (Distinguishes (c.Fails routine) n c'.registers.ax ↔ c.Fails routine ∨ n < 0x8000) := by
  -- counting the call comes first and moves nothing
  have hcounted : ∃ n, Transfers (c.Fails routine)
      { c with counters := c.counters.recordCall routine } c' n := by
    have hafter : (routine.answer c).2 = c' := congrArg Prod.snd h
    simp only [List.mem_cons, List.not_mem_nil, or_false] at hroutine
    rcases hroutine with rfl | rfl | rfl
    · exact transfers_printf h
    · rw [← hafter]
      exact transfers_hostWrite { c with counters := c.counters.recordCall .hostWrite }
    · rw [← hafter]
      exact transfers_hostRead { c with counters := c.counters.recordCall .hostRead }
  obtain ⟨n, hn⟩ := hcounted
  exact ⟨n, hn.of_counted, hn.distinguishes_iff⟩

/-- The memory of a program that has pushed descriptor 0 and the buffer `$0200`. -/
def readMemory : Memory :=
  let stack : CStack := ⟨0⟩
  stack.push (stack.push (stack.setPointer (.filled 0) 0xC000) 0) 0x0200

/-- A read of some bytes of a script. -/
def readCall (count : UInt16) (script : List UInt8) : Call :=
  ⟨(Registers.initial 0xFFF6 0xFD).setAX count, readMemory, .start script .none, .zero, ⟨0⟩,
    default, 1⟩

theorem descriptor_readCall (count : UInt16) (script : List UInt8) :
    (readCall count script).descriptor = 0 := by
  have h : ((⟨0⟩ : CStack).pop ((⟨0⟩ : CStack).pop readMemory).2).1 = 0 := by
    decide +kernel
  exact h

theorem answer_readCall (count : UInt16) (script : List UInt8) :
    Routine.hostRead.answer (readCall count script) =
      (.ok .goBack, (Routine.hostRead.answer (readCall count script)).2) := by
  have hreturns : (Routine.hostRead.answer (readCall count script)).1 = .ok .goBack := by
    rw [answer_hostRead, hostRead_fst]
  rw [← hreturns]

theorem transfers_readCall {count : UInt16} {script : List UInt8} {n : Nat}
    (hn : (script.take count.toNat).length = n) :
    Transfers ((readCall count script).Fails .hostRead) (readCall count script)
      (Routine.hostRead.answer (readCall count script)).2 n := by
  have hax : (readCall count script).registers.ax = count := Registers.ax_setAX _ _
  have hlength : (script.take (readCall count script).registers.ax.toNat).length = n := by
    rw [hax, hn]
  exact (transfers_hostRead_of_eq (c := { readCall count script with
    counters := Counters.zero.recordCall .hostRead }) (descriptor_readCall count script)
    hlength).of_counted

/-- A read that finds fewer bytes than it asks for returns how many it found. -/
theorem transfer_specification_shortRead :
    let c := readCall 5 [72, 105]
    let c' := (Routine.hostRead.answer c).2
    Routine.hostRead ∈ [Routine.printf, .hostWrite, .hostRead] ∧
      Routine.hostRead.answer c = (.ok .goBack, c') ∧
      Transfers (c.Fails .hostRead) c c' 2 ∧
      Distinguishes (c.Fails .hostRead) 2 c'.registers.ax := by
  intro c c'
  have hanswer : Routine.hostRead.answer c = (.ok .goBack, c') := answer_readCall 5 [72, 105]
  obtain ⟨n, hn, hdistinguishes⟩ := transfer_specification (by decide) hanswer
  obtain rfl : n = 2 := by
    have hread : Transfers (c.Fails .hostRead) c c' 2 := transfers_readCall (by decide)
    exact Nat.add_left_cancel (hn.moved.symm.trans hread.moved)
  exact ⟨by decide, hanswer, hn, hdistinguishes.mpr (.inr (by decide))⟩

/-- A read of `$8000` bytes succeeds, and its result is negative. -/
theorem read_negative :
    let c := readCall 0x8000 (List.replicate 0x8000 65)
    ∃ c', Routine.hostRead.answer c = (.ok .goBack, c') ∧ ¬ c.Fails .hostRead ∧
      c'.console.transcript.moved = c.console.transcript.moved + 0x8000 ∧
      signedWord c'.registers.ax = -0x8000 := by
  intro c
  have hserved : ¬ c.Fails .hostRead := not_not_intro (descriptor_readCall _ _)
  -- the script is long, so its length is computed and not counted
  have hcount : ((List.replicate 0x8000 (65 : UInt8)).take (0x8000 : UInt16).toNat).length =
      0x8000 := by
    rw [List.length_take, List.length_replicate]
    rfl
  have h := transfers_readCall hcount
  refine ⟨_, answer_readCall _ _, hserved, h.moved, ?_⟩
  rw [h.succeeded hserved]
  decide

end Call

end Bench65
