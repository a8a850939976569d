import Bench65.Proofs.Call.Frame
import Bench65.Proofs.Call.Transfer

/-!
# Input through any mix of calls

A program may take its input a byte at a time, by `getchar`, and in blocks, by `read` on descriptor
0. `input_delivery` says of every sequence of calls that each byte of the script is delivered once
and in order, until the calls have asked for all there is, and what each of the calls does
(`Exchange.Served`).

What a call takes from the script is counted by its request (`remaining_routine`), what is delivered
by what the program finds in its registers and its memory (`Exchange.delivered`).
-/

namespace Bench65

/-! ### Cells of the C stack -/

/-- The two cells of the stack pointer. -/
def CStack.cells (s : CStack) : Set UInt16 :=
  Call.span s.pointerCell.toUInt16 2

/-- A word written leaves the cells outside it alone. -/
theorem Memory.read_writeWord_of_not_mem_span (m : Memory) {a c : UInt16} (w : UInt16)
    (h : c ∉ Call.span a 2) : (m.writeWord a w).read c = m.read c := by
  have hfar : 2 ≤ (c - a).toNat := Nat.not_lt.mp h
  have hnext : 1 ≤ (c - (a + 1)).toNat := by
    rw [toNat_sub_add_one (by omega)]
    omega
  exact m.read_writeWord_of_ne w (ne_of_one_le_toNat_sub (by omega)) (ne_of_one_le_toNat_sub hnext)

theorem Memory.read_writeBytes_of_not_mem_span (m : Memory) {a c : UInt16} {bytes : List UInt8}
    (h : c ∉ Call.span a bytes.length) : (m.writeBytes a bytes).read c = m.read c :=
  m.read_writeBytes_of_le (Nat.not_lt.mp h)

namespace Call

/-- The buffer that a hook is called with, the first word on the C stack. -/
def buffer (c : Call) : UInt16 :=
  c.pop.1

theorem pointer_popped (c : Call) :
    c.stack.pointer c.popped.memory = c.stack.pointer c.memory + 4 := by
  show c.stack.pointer (c.stack.setPointer c.pop.2.memory (c.stack.pointer c.pop.2.memory + 2)) = _
  have hfirst : c.stack.pointer c.pop.2.memory = c.stack.pointer c.memory + 2 :=
    c.stack.pointer_setPointer _ _
  rw [CStack.pointer_setPointer, hfirst, UInt16.add_assoc]
  rfl

/-- Popping changes the cells of the pointer only. -/
theorem read_popped (c : Call) {a : UInt16} (h : a ∉ c.stack.cells) :
    c.popped.memory.read a = c.memory.read a := by
  have hsecond : c.popped.memory.read a = c.pop.2.memory.read a :=
    c.pop.2.memory.read_writeWord_of_not_mem_span _ h
  rw [hsecond]
  exact c.memory.read_writeWord_of_not_mem_span _ h

/-- The pointer stays where its cells do. -/
theorem pointer_congr_cells {s : CStack} {m n : Memory} (h : ∀ a ∈ s.cells, n.read a = m.read a) :
    s.pointer n = s.pointer m := by
  have hlow : s.pointerCell.toUInt16 ∈ s.cells := by
    show (_ - _ : UInt16).toNat < 2
    rw [UInt16.sub_self]
    decide
  have hhigh : s.pointerCell.toUInt16 + 1 ∈ s.cells := by
    show (_ - _ : UInt16).toNat < 2
    rw [UInt16.add_comm, UInt16.add_sub_cancel]
    decide
  unfold CStack.pointer Memory.readWord
  rw [h _ hlow, h _ hhigh]

/-! ### What a call takes from the script -/

/-- The number of bytes of input that a call asks for. -/
def requested (c : Call) : Routine → Nat
  | .getchar => 1
  | .hostRead => if c.descriptor = 0 then c.registers.ax.toNat else 0
  | _ => 0

theorem remaining_answer (c : Call) (q : Request) :
    (q.answer c).2.console.remaining = c.console.remaining.drop q.wanted := by
  cases q with
  | refuse | goBack | exit => rfl
  | write m stream bytes result =>
    show ({ c with memory := m }.writeAndReturn stream bytes result).2.console.remaining = _
    rw [writeAndReturn_eq, Console.write_eq]
    rfl
  | getByte =>
    show c.getchar.2.console.remaining = _
    rw [getchar_eq]
    rfl
  | read m buffer count =>
    show ({ c with memory := m }.readInto buffer count).2.console.remaining = _
    rw [readInto_eq]
    rfl

theorem wanted_request (routine : Routine) (c : Call) :
    (routine.request c).wanted = c.requested routine := by
  cases routine with
  | hostRead =>
    show c.requestRead.wanted = if c.descriptor = 0 then c.registers.ax.toNat else 0
    by_cases h : c.descriptor = 0
    · rw [if_pos h]
      exact congrArg Request.wanted (if_neg (not_not_intro h))
    · rw [if_neg h]
      exact congrArg Request.wanted (if_pos h)
  -- every other routine asks for no input, whether or not it is refused
  | printf =>
    show c.requestPrintf.wanted = 0
    unfold requestPrintf
    split
    · rfl
    · split <;> rfl
  | puts =>
    show c.requestPuts.wanted = 0
    unfold requestPuts
    split <;> rfl
  | hostOpen =>
    show c.requestOpen.wanted = 0
    unfold requestOpen
    split <;> rfl
  | hostWrite =>
    show c.requestWrite.wanted = 0
    unfold requestWrite
    dsimp only
    split <;> rfl
  | getchar | putchar | exit | hostExit | hostClose | hostArgs => rfl

/-- A call takes what it asks for, as far as there is any. -/
theorem remaining_routine (routine : Routine) (c : Call) :
    (routine.answer c).2.console.remaining = c.console.remaining.drop (c.requested routine) := by
  show (routine.perform
    { c with counters := c.counters.recordCall routine }).2.console.remaining = _
  rw [Routine.perform_eq_answer, remaining_answer, wanted_request]
  rfl

/-! ### What the two routines do -/

/-- The answer to `getchar`. -/
structure GotByte (c : Call) (answer : Answer) : Prop where
  /-- The call returns. -/
  returns : answer.1 = .ok .goBack
  /-- The next byte arrives in the accumulator, with `X` zero. -/
  byte : ∀ b rest, c.console.remaining = b :: rest →
    answer.2.registers.a = b ∧ answer.2.registers.x = 0 ∧ answer.2.console.remaining = rest
  /-- At the end of the script the result is `$FFFF`, and stays so. -/
  ended : c.console.remaining = [] →
    answer.2.registers.ax = 0xFFFF ∧ answer.2.console = c.console
  /-- Memory is unchanged. -/
  memory : answer.2.memory = c.memory

/-- The answer to `read` on descriptor 0, which delivers `n` bytes. -/
structure ReadScript (c : Call) (n : Nat) (answer : Answer) : Prop where
  /-- The call returns. -/
  returns : answer.1 = .ok .goBack
  /-- The result is the number of bytes. -/
  result : answer.2.registers.ax.toNat = n
  /-- The next bytes of the script are in the buffer, in order. -/
  holds : answer.2.memory.Holds c.buffer (c.console.remaining.take n)
  /-- No more are taken. -/
  consumed : answer.2.console.remaining = c.console.remaining.drop n
  /-- Two words are popped, unless the bytes have gone where the pointer is. -/
  pointer : Disjoint (span c.buffer n) c.stack.cells →
    c.stack.pointer answer.2.memory = c.stack.pointer c.memory + 4
  /-- The rest of the memory is unchanged. -/
  memory : ∀ a, a ∉ span c.buffer n → a ∉ c.stack.cells → answer.2.memory.read a = c.memory.read a

/-- The answer to `read` on another descriptor. -/
structure ReadNothing (c : Call) (answer : Answer) : Prop where
  /-- The call returns. -/
  returns : answer.1 = .ok .goBack
  /-- The result is `$FFFF`. -/
  result : answer.2.registers.ax = 0xFFFF
  /-- Nothing is taken. -/
  console : answer.2.console = c.console
  /-- Two words are popped. -/
  pointer : c.stack.pointer answer.2.memory = c.stack.pointer c.memory + 4
  /-- The rest of the memory is unchanged. -/
  memory : ∀ a, a ∉ c.stack.cells → answer.2.memory.read a = c.memory.read a

variable (c : Call)

theorem lowByte_toUInt16 (b : UInt8) : lowByte b.toUInt16 = b := by
  apply UInt8.toNat_inj.mp
  have hb := b.toNat_lt
  rw [toNat_lowByte, UInt8.toNat_toUInt16]
  omega

theorem highByte_toUInt16 (b : UInt8) : highByte b.toUInt16 = 0 := by
  apply UInt8.toNat_inj.mp
  have hb := b.toNat_lt
  rw [toNat_highByte, UInt8.toNat_toUInt16]
  exact Nat.div_eq_of_lt hb

theorem gotByte_answer : GotByte c (Routine.getchar.answer c) := by
  have hanswer : Routine.getchar.answer c = _ :=
    getchar_eq { c with counters := c.counters.recordCall .getchar }
  rw [hanswer]
  refine ⟨rfl, fun b rest h => ?_, fun h => ?_, rfl⟩
  · have hresult :
        (c.console.remaining.take 1).head?.elim minusOne UInt8.toUInt16 = b.toUInt16 := by
      rw [h]
      rfl
    refine ⟨?_, ?_, ?_⟩
    · show lowByte ((c.console.remaining.take 1).head?.elim minusOne UInt8.toUInt16) = b
      rw [hresult, lowByte_toUInt16]
    · show highByte ((c.console.remaining.take 1).head?.elim minusOne UInt8.toUInt16) = 0
      rw [hresult, highByte_toUInt16]
    · show c.console.remaining.drop 1 = rest
      rw [h]
      rfl
  · refine ⟨?_, Console.read_of_remaining_eq_nil h c.step 1⟩
    show (c.registers.setAX ((c.console.remaining.take 1).head?.elim _ _)).ax = _
    rw [Registers.ax_setAX, h]
    rfl

theorem readNothing_answer (h : c.descriptor ≠ 0) :
    ReadNothing c (Routine.hostRead.answer c) := by
  have hanswer : Routine.hostRead.answer c =
      { c with counters := c.counters.recordCall .hostRead }.popped.goBackWith minusOne :=
    hostRead_of_ne h
  rw [hanswer]
  exact ⟨rfl, Registers.ax_setAX _ _, rfl, c.pointer_popped, fun _ ha => c.read_popped ha⟩

theorem readScript_answer (h : c.descriptor = 0) :
    ReadScript c (min c.registers.ax.toNat c.console.remaining.length)
      (Routine.hostRead.answer c) := by
  have hlength : (c.console.remaining.take c.registers.ax.toNat).length =
      min c.registers.ax.toNat c.console.remaining.length := List.length_take
  have hlt : (c.console.remaining.take c.registers.ax.toNat).length < 0x10000 := by
    have hax := c.registers.ax.toNat_lt
    omega
  have hanswer : Routine.hostRead.answer c =
      { c with counters := c.counters.recordCall .hostRead }.popped.readInto c.buffer
        c.registers.ax.toNat := hostRead_of_eq h
  -- the loop over the bytes is one write of those that are there
  rw [hanswer, readInto_eq]
  have hdelivered : c.console.remaining.take
      (min c.registers.ax.toNat c.console.remaining.length) =
        c.console.remaining.take c.registers.ax.toNat := (List.take_eq_take_min ..).symm
  refine ⟨rfl, ?_, ?_, ?_, ?_, ?_⟩
  · show (c.registers.setAX (UInt16.ofNat (c.console.remaining.take _).length)).ax.toNat = _
    rw [Registers.ax_setAX, UInt16.toNat_ofNat_of_lt' hlt, hlength]
  · rw [hdelivered]
    exact c.popped.memory.holds_writeBytes c.buffer (Nat.le_of_lt hlt)
  · exact List.drop_eq_drop_min
  -- the pointer moved when the arguments were popped, and the buffer does not reach it
  · intro hdisjoint
    rw [← c.pointer_popped]
    refine pointer_congr_cells fun a ha => ?_
    have hout := Set.disjoint_right.mp hdisjoint ha
    rw [← hlength] at hout
    exact c.popped.memory.read_writeBytes_of_not_mem_span hout
  · intro a hout ha
    rw [← hlength] at hout
    exact (c.popped.memory.read_writeBytes_of_not_mem_span hout).trans (c.read_popped ha)

end Call

/-! ### Sequences of calls -/

/-- A call as a program makes it, with registers and memory of its choice. -/
structure Invocation where
  /-- The routine called. -/
  routine : Routine
  /-- The registers. -/
  registers : Registers
  /-- The memory. -/
  memory : Memory
  /-- The C stack. -/
  stack : CStack
  /-- Where the program's arguments lie. -/
  arguments : ArgumentBlock
  /-- The step of the call. -/
  step : Nat

/-- The call with the console and the counters of the run. -/
def Invocation.call (v : Invocation) (console : Console) (counters : Counters) : Call :=
  ⟨v.registers, v.memory, console, counters, v.stack, v.arguments, v.step⟩

/-- A call and its answer. -/
structure Exchange where
  /-- The routine called. -/
  routine : Routine
  /-- The call. -/
  before : Call
  /-- Its answer. -/
  answer : Call.Answer

/-- Calls made one after the other on one console. -/
def session : Console → Counters → List Invocation → List Exchange
  | _, _, [] => []
  | console, counters, v :: rest =>
    let answer := v.routine.answer (v.call console counters)
    ⟨v.routine, v.call console counters, answer⟩ ::
      session answer.2.console answer.2.counters rest

namespace Exchange

/-- The number of bytes of input that the call asks for. -/
def requested (x : Exchange) : Nat :=
  x.before.requested x.routine

/-- The bytes of input that the program finds: in the accumulator or in its buffer. -/
def delivered (x : Exchange) : List UInt8 :=
  match x.routine with
  | .getchar =>
    if x.answer.2.registers.ax = Call.minusOne then [] else [x.answer.2.registers.a]
  | .hostRead =>
    if x.before.descriptor = 0 then
      x.answer.2.memory.readBytes x.before.buffer x.answer.2.registers.ax.toNat
    else []
  | _ => []

/-- The call is answered as it should be. -/
def Served (x : Exchange) : Prop :=
  match x.routine with
  | .getchar => x.before.GotByte x.answer
  | .hostRead =>
    (x.before.descriptor = 0 → x.before.ReadScript
      (min x.before.registers.ax.toNat x.before.console.remaining.length) x.answer) ∧
    (x.before.descriptor ≠ 0 → x.before.ReadNothing x.answer)
  | _ => x.answer.2.console.remaining = x.before.console.remaining

end Exchange

section Session

variable {routine : Routine} {c : Call} {answer : Call.Answer}

theorem served_of_answer (h : routine.answer c = answer) :
    Exchange.Served ⟨routine, c, answer⟩ := by
  have hremaining := c.remaining_routine routine
  rw [h] at hremaining
  cases routine with
  | getchar =>
    have hbyte := c.gotByte_answer
    rw [h] at hbyte
    exact hbyte
  | hostRead =>
    have hscript := c.readScript_answer
    have hnothing := c.readNothing_answer
    rw [h] at hscript hnothing
    exact ⟨hscript, hnothing⟩
  | _ => exact hremaining

theorem delivered_getchar (h : c.GotByte answer) :
    Exchange.delivered ⟨.getchar, c, answer⟩ = c.console.remaining.take 1 := by
  show (if answer.2.registers.ax = Call.minusOne then [] else [answer.2.registers.a]) = _
  cases hremaining : c.console.remaining with
  | nil => exact if_pos (h.ended hremaining).1
  | cons b rest =>
    obtain ⟨ha, hx, -⟩ := h.byte b rest hremaining
    have hne : answer.2.registers.ax ≠ Call.minusOne := by
      intro heq
      have hhigh := congrArg highByte heq
      rw [Registers.ax, highByte_word, hx] at hhigh
      exact absurd hhigh (by decide)
    rw [if_neg hne, ha, List.take_succ_cons, List.take_zero]

theorem delivered_hostRead (hdescriptor : c.descriptor = 0)
    (h : c.ReadScript (min c.registers.ax.toNat c.console.remaining.length) answer) :
    Exchange.delivered ⟨.hostRead, c, answer⟩ =
      c.console.remaining.take c.registers.ax.toNat := by
  have hlength : (c.console.remaining.take c.registers.ax.toNat).length =
      answer.2.registers.ax.toNat := by
    rw [h.result, List.length_take]
  have hholds := h.holds
  rw [← List.take_eq_take_min] at hholds
  show (if c.descriptor = 0 then _ else _) = _
  rw [if_pos hdescriptor, ← hlength]
  exact Memory.holds_iff_readBytes.mp hholds

/-- What is delivered is what is next in the script, as much as was asked for. -/
theorem delivered_of_served (h : Exchange.Served ⟨routine, c, answer⟩) :
    Exchange.delivered ⟨routine, c, answer⟩ = c.console.remaining.take (c.requested routine) := by
  cases routine with
  | getchar => exact delivered_getchar h
  | hostRead =>
    by_cases hdescriptor : c.descriptor = 0
    · have hrequested : c.requested .hostRead = c.registers.ax.toNat := if_pos hdescriptor
      rw [hrequested]
      exact delivered_hostRead hdescriptor (h.1 hdescriptor)
    · have hrequested : c.requested .hostRead = 0 := if_neg hdescriptor
      rw [hrequested]
      exact if_neg hdescriptor
  | _ => rfl

variable {console : Console} {counters : Counters} {invocations : List Invocation}

/-- What calls deliver is what they find, as much as they ask for in all. -/
theorem flatMap_delivered_session : (session console counters invocations).flatMap
      Exchange.delivered =
    console.remaining.take ((session console counters invocations).map Exchange.requested).sum := by
  induction invocations generalizing console counters with
  | nil => rfl
  | cons v rest ih =>
    rw [session, List.flatMap_cons, List.map_cons, List.sum_cons, ih,
      delivered_of_served (served_of_answer rfl), Call.remaining_routine, List.take_add]
    rfl

/-- A call finds what those before it have left. -/
theorem remaining_session {earlier later : List Exchange} {x : Exchange}
    (h : session console counters invocations = earlier ++ x :: later) :
    x.before.console.remaining = console.remaining.drop (earlier.map Exchange.requested).sum ∧
      x.Served := by
  -- each invocation starts from what the one before left, so the console is generalized
  induction invocations generalizing console counters earlier with
  | nil => exact absurd h.symm (List.append_ne_nil_of_right_ne_nil _ (List.cons_ne_nil _ _))
  | cons v rest ih =>
    rw [session] at h
    cases earlier with
    | nil =>
      obtain rfl := (List.cons.inj h).1
      exact ⟨rfl, served_of_answer rfl⟩
    | cons first earlier =>
      obtain ⟨rfl, hrest⟩ := List.cons.inj h
      obtain ⟨hremaining, hserved⟩ := ih hrest
      refine ⟨?_, hserved⟩
      rw [hremaining, Call.remaining_routine, List.drop_drop, List.map_cons, List.sum_cons]
      rfl

/-- Every byte of the script is delivered once and in order, whatever mix of calls asks for it. -/
theorem input_delivery (script : List UInt8) (plan : FailurePlan) (counters : Counters)
    (invocations : List Invocation) :
    let exchanges := session (Console.start script plan) counters invocations
    exchanges.flatMap Exchange.delivered =
        script.take (min (exchanges.map Exchange.requested).sum script.length) ∧
      ∀ earlier x later, exchanges = earlier ++ x :: later →
        x.before.console.remaining = script.drop (earlier.map Exchange.requested).sum ∧
          x.Served := by
  intro exchanges
  refine ⟨?_, fun earlier x later h => remaining_session h⟩
  rw [← List.take_eq_take_min]
  exact flatMap_delivered_session

/-- A block of two bytes, then the last one, then the end of the script. -/
theorem input_delivery_threeCalls :
    let read : Invocation :=
      ⟨.hostRead, (Registers.initial 0xFFF6 0xFD).setAX 2, Call.readMemory, ⟨0⟩, default, 1⟩
    let get : Invocation :=
      ⟨.getchar, Registers.initial 0xFFF6 0xFD, Call.readMemory, ⟨0⟩, default, 2⟩
    (session (Console.start [72, 105, 33] .none) .zero [read, get, get]).flatMap
      Exchange.delivered = [72, 105, 33] := by
  intro read get
  have h := (input_delivery [72, 105, 33] .none .zero [read, get, get]).1
  have hrequested : ((session (Console.start [72, 105, 33] .none) .zero [read, get, get]).map
      Exchange.requested).sum = 4 := by
    decide +kernel
  rw [hrequested] at h
  exact h

end Session

end Bench65
