import Bench65.Proofs.Call.Counts
import Bench65.Proofs.Call.Input
import Bench65.Proofs.Printf.Append
import Bench65.Proofs.Printf.Reading

/-!
# What a routine may change

* `write_set`: a call that is answered has changed no register but `A` and `X`, and memory only as
  its routine may (`Routine.Leaves`).

What memory a request leaves is read off it (`Request.leaves`), so the routines that ask for the
same thing need no argument of their own. `printf` is the one that needs it: the counts that it
stores are those of the `%n` of its format (`CountsOf`), the one stored last is the one found in
memory (`Overlays`), and the stack pointer is stored behind all of them.
-/

namespace Bench65

open Printf

namespace Call

variable {c c' : Call} {action : Action}

/-! ### Requests -/

/-- The memory after a request has been met. -/
def Request.leaves (c : Call) : Request → Memory
  | refuse m _ | goBack m _ | write m _ _ _ => m
  | exit _ | getByte => c.memory
  | read m buffer count => m.writeBytes buffer (c.console.remaining.take count)

theorem memory_answer (q : Request) (c : Call) : (q.answer c).2.memory = q.leaves c := by
  cases q with
  | refuse | goBack | exit => rfl
  | write m stream bytes result =>
    show ({ c with memory := m }.writeAndReturn stream bytes result).2.memory = m
    rw [writeAndReturn_eq]
    rfl
  | getByte =>
    show c.getchar.2.memory = c.memory
    rw [getchar_eq]
    rfl
  | read m buffer count =>
    show ({ c with memory := m }.readInto buffer count).2.memory = _
    rw [readInto_eq]
    rfl

theorem console_answer_write (c : Call) (m : Memory) (stream : Stream) (bytes : List UInt8)
    (result : Nat → UInt16) :
    ((Request.write m stream bytes result).answer c).2.console =
      (c.console.write c.step stream bytes).2 := by
  show ({ c with memory := m }.writeAndReturn stream bytes result).2.console = _
  rw [writeAndReturn_eq]
  rfl

/-! ### Counts -/

/-- The addresses of a count. -/
def CountStore.addresses (store : CountStore) : Set UInt16 :=
  span store.target store.bytes

/-- The second memory is the first one with counts stored in it one after the other, apart from some
other addresses. Where counts overlap, the last one is there. -/
structure Overlays (stores : List CountStore) (others : Set UInt16) (m m' : Memory) : Prop where
  last : ∀ before store after, stores = before ++ store :: after → ∀ i < store.bytes,
    store.target + UInt16.ofNat i ∉ others →
      (∀ later ∈ after, store.target + UInt16.ofNat i ∉ later.addresses) →
      m'.read (store.target + UInt16.ofNat i) = UInt8.ofNat (store.written / 256 ^ i)
  outside : ∀ a, a ∉ others → (∀ store ∈ stores, a ∉ store.addresses) → m'.read a = m.read a

/-- The counts that a format stores while it is rendered: one for each `%n` and in their order,
where the argument of the `%n` points, of the bytes of the output that come before it. -/
structure CountsOf (frame : VariadicFrame) (m : Memory) (format output : List UInt8)
    (stores : List CountStore) : Prop where
  bytes_eq : stores.map CountStore.bytes = (pieces format).filterMap countBytes?
  count : ∀ before d after, pieces format = before ++ .directive d :: after →
    d.conversion = .count → ∃ text s target s', text <+: output ∧
      (renderPieces frameSource 0 before).run ⟨frame, m⟩ = .ok text s ∧
      (countTarget d).run s = .ok target s' ∧
      stores[(before.filterMap countBytes?).length]? = some ⟨target, text.length, d.length.size⟩

theorem read_apply_of_lt (m : Memory) {store : CountStore} (hsize : store.bytes ≤ 0x10000) {i : Nat}
    (hi : i < store.bytes) :
    (CountStore.apply m store).read (store.target + UInt16.ofNat i) =
      UInt8.ofNat (store.written / 256 ^ i) := by
  have hlength : store.digits.length = store.bytes := by
    rw [CountStore.digits, List.length_map, List.length_range]
  have hholds := m.holds_writeBytes store.target (hlength ▸ hsize)
  have hread := Memory.holds_iff_readBytes.mp hholds
  rw [hlength] at hread
  exact List.map_inj_left.mp hread i (List.mem_range.mpr hi)

/-- Storing counts one after the other leaves the last one. -/
theorem overlays_foldl_apply {stores : List CountStore} (m : Memory)
    (hsize : ∀ store ∈ stores, store.bytes ≤ 0x10000) :
    Overlays stores ∅ m (stores.foldl CountStore.apply m) where
  last := by
    rintro before store after rfl i hi - hlater
    have hstore := hsize store (List.mem_append_right _ (List.mem_cons_self ..))
    rw [List.foldl_append, List.foldl_cons, read_foldl_apply _ fun later hmem =>
      Nat.not_lt.mp (hlater later hmem)]
    exact read_apply_of_lt _ hstore hi
  outside a _ h := read_foldl_apply m fun store hmem => Nat.not_lt.mp (h store hmem)

/-- What is stored elsewhere afterwards does not matter. -/
theorem Overlays.congr {stores : List CountStore} {others : Set UInt16} {m m' n : Memory}
    (h : Overlays stores ∅ m m') (heq : ∀ a, a ∉ others → n.read a = m'.read a) :
    Overlays stores others m n where
  last before store after hsplit i hi hother hlater := by
    rw [heq _ hother]
    exact h.last before store after hsplit i hi (Set.notMem_empty _) hlater
  outside a ha hnone := by
    rw [heq a ha]
    exact h.outside a (Set.notMem_empty a) hnone

/-- Pieces behind others that are rendered store their counts behind those of the others. -/
theorem countStores_append {before : List Piece} {written : Nat} {s s' : FormatState}
    {text : List UInt8} (h : (renderPieces frameSource written before).run s = .ok text s')
    (after : List Piece) :
    countStores written s (before ++ after) =
      countStores written s before ++ countStores (written + text.length) s' after := by
  induction before generalizing written s text with
  | nil =>
    cases h
    rfl
  | cons p ps ih =>
    obtain ⟨first, s₁, hp, h⟩ := exists_of_run_bind_eq_ok h
    obtain ⟨rest, s₂, hps, h⟩ := exists_of_run_bind_eq_ok h
    cases h
    simp only [List.cons_append, countStores, hp]
    rw [ih hps, List.append_assoc, List.length_append, Nat.add_assoc]

/-- A `%n` that is rendered stores the number of bytes before it, and before the counts of the
pieces behind it. -/
theorem head?_countStores {d : Directive} (hcount : d.conversion = .count) {written : Nat}
    {s s' : FormatState} {text : List UInt8}
    (h : (d.render frameSource written).run s = .ok text s') (after : List Piece) :
    ∃ target s₁, (countTarget d).run s = .ok target s₁ ∧
      (countStores written s (.directive d :: after)).head? =
        some ⟨target, written, d.length.size⟩ := by
  have htarget := run_render_count hcount written s
  rw [h] at htarget
  cases hrun : (countTarget d).run s with
  | error e s₁ =>
    rw [hrun] at htarget
    cases htarget
  | ok target s₁ =>
    have hstore : countStore? written s (.directive d) =
        some ⟨target, written, d.length.size⟩ := by
      simp only [countStore?, hcount, if_true, hrun]
    have hrender : (Piece.render frameSource written (.directive d)).run s = .ok text s' := h
    refine ⟨target, s₁, rfl, ?_⟩
    simp only [countStores, hrender, hstore]
    rfl

theorem countsOf_format {frame : VariadicFrame} {m : Memory} {format output : List UInt8}
    {s : FormatState} (h : (Printf.format frameSource format).run ⟨frame, m⟩ = .ok output s) :
    CountsOf frame m format output (countStores 0 ⟨frame, m⟩ (pieces format)) where
  bytes_eq := (renderPieces_ok h).1
  count := by
    intro before d after hpieces hcount
    have hrun : (renderPieces frameSource 0 (pieces format)).run ⟨frame, m⟩ = .ok output s := h
    rw [hpieces, renderPieces_append] at hrun
    obtain ⟨text, s₁, hbefore, hrun⟩ := exists_of_run_bind_eq_ok hrun
    obtain ⟨rest, s₂, hdirective, hrun⟩ := exists_of_run_bind_eq_ok hrun
    cases hrun
    obtain ⟨first, s₃, hrender, -⟩ := exists_of_run_bind_eq_ok hdirective
    obtain ⟨target, s₄, htarget, hhead⟩ := head?_countStores hcount hrender after
    refine ⟨text, s₁, target, s₄, List.prefix_append _ _, hbefore, htarget, ?_⟩
    -- as many stores come before that of the directive as there are counts before it
    have hlength : (countStores 0 ⟨frame, m⟩ before).length =
        (before.filterMap countBytes?).length := by
      rw [← (renderPieces_ok hbefore).1, List.length_map]
    rw [hpieces, countStores_append hbefore, ← hlength,
      List.getElem?_append_right (Nat.le_refl _), Nat.sub_self, ← List.head?_eq_getElem?, hhead,
      Nat.zero_add]

theorem size_le (length : Length) : length.size ≤ 4 := by
  cases length <;> decide

/-- A count has at most four bytes. -/
theorem CountsOf.bytes_le {frame : VariadicFrame} {m : Memory} {format output : List UInt8}
    {stores : List CountStore} (h : CountsOf frame m format output stores) {store : CountStore}
    (hstore : store ∈ stores) : store.bytes ≤ 4 := by
  have hmem : store.bytes ∈ stores.map CountStore.bytes := List.mem_map_of_mem hstore
  rw [h.bytes_eq, List.mem_filterMap] at hmem
  obtain ⟨piece, -, hpiece⟩ := hmem
  cases piece with
  | literal b => cases hpiece
  | directive d =>
    by_cases hcount : d.conversion = .count
    · have hsize : some d.length.size = some store.bytes := by
        rw [← hpiece, countBytes?, if_pos hcount]
      rw [← Option.some.inj hsize]
      exact size_le d.length
    · rw [countBytes?, if_neg hcount] at hpiece
      cases hpiece

/-- The length that is read before an `n` has the size of the type that the modifier selects. -/
theorem size_readLength (modifier : Standard.Modifier) (rest : List UInt8) :
    8 * (readLength (modifier.text ++ Ascii.byte 'n' :: rest)).1.size = modifier.bits := by
  cases modifier <;> rfl

/-! ### What the routines leave -/

/-- What a call of `printf` leaves that has rendered its format as some output. -/
structure Printed (c c' : Call) (format output : List UInt8) (stores : List CountStore) : Prop where
  console : c'.console = (c.console.write c.step .stdout output).2
  counts : ∃ frame, c.openFormat = .ok (frame, format) ∧
    CountsOf frame c.memory format output stores
  memory : Overlays stores c.stack.cells c.memory c'.memory
  pointer : c.stack.pointer c'.memory = c.stack.pointer c.memory + c.registers.y.toUInt16

/-- Some bytes have been removed from the C stack, and memory is otherwise unchanged. -/
structure Dropped (c c' : Call) (n : UInt16) : Prop where
  pointer : c.stack.pointer c'.memory = c.stack.pointer c.memory + n
  memory : ∀ a, a ∉ c.stack.cells → c'.memory.read a = c.memory.read a

/-- What a call of `write` leaves in the transcript. The bytes are those that memory holds when the
arguments have been removed. -/
structure Wrote (c c' : Call) : Prop where
  stream : ∀ stream, outputStream? c.descriptor = some stream →
    ¬ c.console.plan.fails c.console.writeCalls = true →
    c'.console.transcript.stream stream = c.console.transcript.stream stream ++
      c'.memory.readBytes c.buffer c.registers.ax.toNat
  others : ∀ stream, outputStream? c.descriptor ≠ some stream →
    c'.console.transcript.stream stream = c.console.transcript.stream stream
  failed : c.Fails .hostWrite → c'.console.transcript = c.console.transcript

/-- What a call of `args` leaves. -/
structure ServedTable (c c' : Call) : Prop where
  word : ∀ a, a ∉ c.stack.cells → c'.memory.read a =
    (c.memory.writeWord c.registers.ax c.arguments.tableAddress).read a
  memory : ∀ a, a ∉ span c.registers.ax 2 → a ∉ c.stack.cells →
    c'.memory.read a = c.memory.read a
  -- the word may have been stored where the pointer is
  pointer : (c.stack.pointer c'.memory).toNat =
    min (c.stack.pointer (c.memory.writeWord c.registers.ax c.arguments.tableAddress)).toNat
      c.arguments.start.toNat

end Call

open Call

/-- What a routine leaves of a call that it has answered. -/
def Routine.Leaves (c c' : Call) : Routine → Prop
  | .printf => ∃ format output stores, Printed c c' format output stores
  | .hostOpen => Dropped c c' c.registers.y.toUInt16
  | .hostWrite => Dropped c c' 4 ∧ Wrote c c'
  | .hostRead =>
    (c.descriptor = 0 → c.ReadScript (min c.registers.ax.toNat c.console.remaining.length)
      (.ok .goBack, c')) ∧
    (c.descriptor ≠ 0 → c.ReadNothing (.ok .goBack, c'))
  | .hostArgs => ServedTable c c'
  | .puts | .putchar | .getchar | .hostClose | .exit | .hostExit => c'.memory = c.memory

namespace Call

variable {c c' : Call} {action : Action}

section Answers

variable {routine : Routine} {m : Memory} {stream : Stream} {bytes : List UInt8}
  {result : Nat → UInt16}

/-- An answer is the one to the request, the call having been counted. -/
theorem answer_eq_request (routine : Routine) (c : Call) :
    routine.answer c = (routine.request c).answer
      { c with counters := c.counters.recordCall routine } := by
  have hperform := routine.perform_eq_answer { c with counters := c.counters.recordCall routine }
  rw [routine.request_with c c.console] at hperform
  exact hperform

theorem memory_of_answer (h : routine.answer c = (.ok action, c')) :
    c'.memory =
      (routine.request c).leaves { c with counters := c.counters.recordCall routine } := by
  have hafter : (routine.answer c).2 = c' := congrArg Prod.snd h
  rw [← hafter, answer_eq_request, memory_answer]

theorem console_of_answer (h : routine.answer c = (.ok action, c'))
    (hrequest : routine.request c = .write m stream bytes result) :
    c'.console = (c.console.write c.step stream bytes).2 := by
  have hafter : (routine.answer c).2 = c' := congrArg Prod.snd h
  rw [← hafter, answer_eq_request, hrequest, console_answer_write]

theorem request_ne_refuse (h : routine.answer c = (.ok action, c')) (m : Memory)
    (failure : Failure) : routine.request c ≠ .refuse m failure := by
  intro hrequest
  rw [answer_eq_request, hrequest] at h
  cases h

end Answers

/-- A call of `printf` that is answered has found a format and rendered it. -/
theorem requestPrintf_of_answer (h : Routine.printf.answer c = (.ok action, c')) :
    ∃ frame format output s, c.openFormat = .ok (frame, format) ∧
      (Printf.format frameSource format).run ⟨frame, c.memory⟩ = .ok output s ∧
      c.requestPrintf = .write (frame.close c.stack s.memory) .stdout output UInt16.ofNat := by
  -- a call that was answered was not refused, which leaves one branch of the request
  have hanswered : ∀ m failure, c.requestPrintf ≠ .refuse m failure := request_ne_refuse h
  unfold requestPrintf at hanswered ⊢
  cases hopen : c.openFormat with
  | error reason =>
    simp only [hopen] at hanswered
    exact absurd rfl (hanswered _ _)
  | ok opened =>
    obtain ⟨frame, format⟩ := opened
    simp only [hopen] at hanswered ⊢
    cases hrun : (Printf.format frameSource format).run ⟨frame, c.memory⟩ with
    | error e s =>
      simp only [hrun] at hanswered
      exact absurd rfl (hanswered _ _)
    | ok output s => exact ⟨frame, format, output, s, rfl, hrun, rfl⟩

theorem printed_of_answer (h : Routine.printf.answer c = (.ok action, c')) :
    ∃ format output stores, Printed c c' format output stores := by
  obtain ⟨frame, format, output, s, hopen, hrun, hrequest⟩ := requestPrintf_of_answer h
  have hcounts := countsOf_format hrun
  have hoverlays := overlays_foldl_apply c.memory fun store hstore =>
    Nat.le_trans (hcounts.bytes_le hstore) (by decide)
  rw [← (renderPieces_ok hrun).2] at hoverlays
  -- the frame is removed from the memory that the counts are in
  have hmemory : c'.memory = c.stack.setPointer s.memory
      (c.stack.pointer c.memory + c.registers.y.toUInt16) := by
    rw [memory_of_answer h]
    show c.requestPrintf.leaves _ = _
    rw [hrequest, ← close_of_openFormat hopen]
    rfl
  refine ⟨format, output, _, console_of_answer h hrequest, ⟨frame, hopen, hcounts⟩,
    hoverlays.congr fun a ha => ?_, ?_⟩
  · rw [hmemory]
    exact s.memory.read_writeWord_of_not_mem_span _ ha
  · rw [hmemory, CStack.pointer_setPointer]

theorem dropped_setPointer {n : UInt16}
    (h : c'.memory = c.stack.setPointer c.memory (c.stack.pointer c.memory + n)) :
    Dropped c c' n where
  pointer := by rw [h, CStack.pointer_setPointer]
  memory a ha := by
    rw [h]
    exact c.memory.read_writeWord_of_not_mem_span _ ha

theorem dropped_of_answer_hostOpen (h : Routine.hostOpen.answer c = (.ok action, c')) :
    Dropped c c' c.registers.y.toUInt16 := by
  have hanswered : ∀ m failure, c.requestOpen ≠ .refuse m failure := request_ne_refuse h
  have hmemory : c'.memory = c.requestOpen.leaves _ := memory_of_answer h
  unfold requestOpen at hanswered hmemory
  cases hopen : c.openFrame with
  | error reason =>
    simp only [hopen] at hanswered
    exact absurd rfl (hanswered _ _)
  | ok frame =>
    simp only [hopen] at hmemory
    refine dropped_setPointer ?_
    rw [hmemory, ← close_of_openFrame hopen]
    rfl

/-- `write` pops its arguments whatever the descriptor. -/
theorem memory_of_answer_hostWrite (h : Routine.hostWrite.answer c = (.ok action, c')) :
    c'.memory = c.popped.memory := by
  have hmemory : c'.memory = c.requestWrite.leaves _ := memory_of_answer h
  rw [hmemory]
  unfold requestWrite
  dsimp only
  cases outputStream? c.pop.2.pop.1 with
  | none => rfl
  | some stream => rfl

theorem requestWrite_of_some {stream : Stream} (h : outputStream? c.descriptor = some stream) :
    c.requestWrite = .write c.popped.memory stream
      (c.popped.memory.readBytes c.buffer c.registers.ax.toNat) UInt16.ofNat := by
  unfold requestWrite
  dsimp only
  rw [show outputStream? c.pop.2.pop.1 = some stream from h]
  rfl

theorem console_of_answer_hostWrite_none (h : Routine.hostWrite.answer c = (.ok action, c'))
    (hnone : outputStream? c.descriptor = none) : c'.console = c.console := by
  have hrequest : Routine.hostWrite.request c = .goBack c.popped.memory minusOne := by
    show c.requestWrite = _
    unfold requestWrite
    dsimp only
    rw [show outputStream? c.pop.2.pop.1 = none from hnone]
    rfl
  have hafter : (Routine.hostWrite.answer c).2 = c' := congrArg Prod.snd h
  rw [← hafter, answer_eq_request, hrequest]
  rfl

theorem wrote_of_answer (h : Routine.hostWrite.answer c = (.ok action, c')) : Wrote c c' := by
  have hmemory := memory_of_answer_hostWrite h
  cases hstream : outputStream? c.descriptor with
  | none =>
    have hconsole := console_of_answer_hostWrite_none h hstream
    refine ⟨fun stream hsome => ?_, fun stream _ => ?_, fun _ => ?_⟩
    · rw [hstream] at hsome
      cases hsome
    · rw [hconsole]
    · rw [hconsole]
  | some stream =>
    have hconsole := console_of_answer h (requestWrite_of_some hstream)
    rw [← hmemory] at hconsole
    refine ⟨fun stream' hsome hplan => ?_, fun other hother => ?_, fun hfails => ?_⟩
    · rw [hstream] at hsome
      cases hsome
      rw [hconsole, Console.stream_write_self _ _ _ hplan]
    · have hne : stream ≠ other := by
        rintro rfl
        exact hother hstream
      rw [hconsole, Console.stream_write_of_ne _ _ _ hne]
    · have hserved : ¬ (c.descriptor ≠ 1 ∧ c.descriptor ≠ 2) := by
        rw [← outputStream?_eq_none_iff, hstream]
        exact Option.some_ne_none stream
      rw [hconsole]
      exact Console.transcript_write_of_fails _ _ _ (hfails.resolve_left hserved) stream

theorem servedTable_of_answer (h : Routine.hostArgs.answer c = (.ok action, c')) :
    ServedTable c c' := by
  have hmemory : c'.memory = c.requestArgs.leaves _ := memory_of_answer h
  -- beside the pointer of the C stack only the word at the destination is written
  have hword : ∀ a, a ∉ c.stack.cells → c'.memory.read a =
      (c.memory.writeWord c.registers.ax c.arguments.tableAddress).read a := by
    intro a ha
    rw [hmemory]
    unfold requestArgs Request.leaves
    dsimp only
    split
    · exact Memory.read_writeWord_of_not_mem_span _ _ ha
    · rfl
  refine ⟨hword, fun a hout ha => ?_, ?_⟩
  · rw [hword a ha]
    exact c.memory.read_writeWord_of_not_mem_span _ hout
  · rw [hmemory]
    unfold requestArgs Request.leaves
    dsimp only
    split
    · rename_i hlt
      have hle := UInt16.lt_iff_toNat_lt.mp hlt
      rw [CStack.pointer_setPointer]
      omega
    · rename_i hge
      have hle := UInt16.le_iff_toNat_le.mp (UInt16.not_lt.mp hge)
      omega

theorem leaves_of_answer {routine : Routine} (h : routine.answer c = (.ok action, c')) :
    routine.Leaves c c' := by
  have hmemory := memory_of_answer h
  have hafter : (routine.answer c).2 = c' := congrArg Prod.snd h
  cases routine with
  | printf => exact printed_of_answer h
  | hostOpen => exact dropped_of_answer_hostOpen h
  | hostWrite =>
    have hpopped := memory_of_answer_hostWrite h
    refine ⟨⟨?_, fun a ha => ?_⟩, wrote_of_answer h⟩
    · rw [hpopped, pointer_popped]
    · rw [hpopped, c.read_popped ha]
  | hostRead =>
    have hanswer : Routine.hostRead.answer c = (.ok .goBack, c') := by
      rw [← hafter, answer_hostRead, ← hostRead_fst]
    refine ⟨fun hzero => ?_, fun hother => ?_⟩
    · rw [← hanswer]
      exact c.readScript_answer hzero
    · rw [← hanswer]
      exact c.readNothing_answer hother
  | hostArgs => exact servedTable_of_answer h
  | puts =>
    have hanswered : ∀ m failure, c.requestPuts ≠ .refuse m failure := request_ne_refuse h
    have hleaves : c'.memory = c.requestPuts.leaves _ := hmemory
    unfold requestPuts at hanswered hleaves
    cases htext : textAt c.memory c.registers.ax none with
    | error reason =>
      simp only [htext] at hanswered
      exact absurd rfl (hanswered _ _)
    | ok text =>
      rw [htext] at hleaves
      exact hleaves
  | putchar | getchar | hostClose | exit | hostExit => exact hmemory

end Call

/-- **A routine changes what it has to and nothing else.** -/
theorem write_set {routine : Routine} {c c' : Call} {action : Action}
    (h : routine.answer c = (.ok action, c')) :
    c'.registers = { c.registers with a := c'.registers.a, x := c'.registers.x } ∧
      routine.Leaves c c' ∧
      ∀ (modifier : Standard.Modifier) (rest : List UInt8),
        8 * (readLength (modifier.text ++ Ascii.byte 'n' :: rest)).1.size = modifier.bits := by
  refine ⟨?_, leaves_of_answer h, size_readLength⟩
  have hanswered := routine.perform_answered { c with counters := c.counters.recordCall routine }
  rw [show routine.perform _ = _ from h] at hanswered
  cases hanswered with
  | returned w hregisters huses =>
    rw [hregisters]
    rfl
  | exited hroutine => rfl

/-- A call of `printf` with two counts, the second one stored over a part of the first. -/
def overlappingCounts : Call :=
  let stack : CStack := ⟨0x80⟩
  let m := (stack.setPointer (.filled 0) 0xC000).writeBytes 0x3000 (Ascii.bytes "a%nbc%hhn\x00")
  ⟨{ Registers.initial 0xFFF6 0xFD with y := 6 }, [0x3000, 0x4000, 0x4001].foldl stack.push m,
    .start [] .none, .zero, stack, default, 1⟩

theorem write_set_overlappingCounts :
    let c := overlappingCounts
    let c' := (Routine.printf.answer c).2
    Routine.printf.answer c = (.ok .goBack, c') ∧ Routine.printf.Leaves c c' ∧
      c'.registers.s = 0xFD ∧ c'.memory.readWord 0x4000 = 0x0301 := by
  intro c c'
  obtain ⟨hreturns, hword⟩ : (Routine.printf.answer c).1 = .ok .goBack ∧
      c'.memory.readWord 0x4000 = 0x0301 := by
    decide +kernel
  have hanswer : Routine.printf.answer c = (.ok .goBack, c') := by
    rw [← hreturns]
  obtain ⟨hregisters, hleaves, -⟩ := write_set hanswer
  refine ⟨hanswer, hleaves, ?_, hword⟩
  rw [hregisters]
  rfl

end Bench65
