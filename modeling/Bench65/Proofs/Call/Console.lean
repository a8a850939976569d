import Bench65.Proofs.Call.Request

/-!
# What a routine sees of the console

A request looks at the console in two places only: whether its write is refused, and which bytes
come next, as many as it asks for (`Request.wanted`). `Request.Overlooks` says that a change of the
console touches neither; the answer is then the same, and leaves the console changed in the same
way as before (`Routine.perform_mapConsole`).

The end of the script is seen by a request that asks for more bytes than are left
(`Request.meetsEnd_iff`).
-/

namespace Bench65

namespace Call

/-! ### Answers -/

theorem readInto_eq (c : Call) (buffer : UInt16) (count : Nat) :
    c.readInto buffer count =
      { c with
        console := c.console.read c.step count
        memory := c.memory.writeBytes buffer (c.console.remaining.take count)
        counters := c.counters.recordRead (c.console.remaining.take count).length }.goBackWith
          (UInt16.ofNat (c.console.remaining.take count).length) := by
  rw [readInto, deliver_eq, Nat.zero_add]

theorem getchar_eq (c : Call) :
    c.getchar =
      { c with
        console := c.console.read c.step 1
        counters := c.counters.recordRead (c.console.remaining.take 1).length }.goBackWith
          ((c.console.remaining.take 1).head?.elim minusOne UInt8.toUInt16) := by
  rw [getchar, Console.consume_eq, Console.peek]
  cases h : c.console.remaining with
  | nil => rfl
  | cons b rest => rfl

theorem writeAndReturn_eq (c : Call) (stream : Stream) (bytes : List UInt8)
    (result : Nat → UInt16) :
    c.writeAndReturn stream bytes result =
      { c with
        console := (c.console.write c.step stream bytes).2
        counters := c.counters.recordWrite (c.console.write c.step stream bytes).1 }.goBackWith
          ((c.console.write c.step stream bytes).1.toOption.elim minusOne result) := by
  rw [writeAndReturn, write_eq]

/-! ### Requests -/

/-- The number of bytes that a request asks the console for. -/
def Request.wanted : Request → Nat
  | getByte => 1
  | read _ _ count => count
  | _ => 0

/-- The call with a changed console. -/
def mapConsole (f : Console → Console) (c : Call) : Call :=
  { c with console := f c.console }

/-- A request does not notice a change of the console: its write, if it asks for one, is met as
before, and the bytes it asks for are the same. -/
structure Request.Overlooks (f : Console → Console) (c : Call) (q : Request) : Prop where
  write_eq : ∀ m stream bytes result, q = .write m stream bytes result →
    (f c.console).write c.step stream bytes =
      ((c.console.write c.step stream bytes).1, f (c.console.write c.step stream bytes).2)
  take_eq : (f c.console).remaining.take q.wanted = c.console.remaining.take q.wanted
  read_eq : (f c.console).read c.step q.wanted = f (c.console.read c.step q.wanted)

variable {f : Console → Console} {c : Call} {q : Request}

/-- A change that is not noticed does not change the answer. -/
theorem Request.Overlooks.answer_eq (h : q.Overlooks f c) :
    q.answer (c.mapConsole f) = ((q.answer c).1, (q.answer c).2.mapConsole f) := by
  cases q with
  | refuse m failure => rfl
  | goBack m w => rfl
  | exit status => rfl
  | write m stream bytes result =>
    have hwrite := h.write_eq m stream bytes result rfl
    show { c.mapConsole f with memory := m }.writeAndReturn stream bytes result =
      (({ c with memory := m }.writeAndReturn stream bytes result).1,
        ({ c with memory := m }.writeAndReturn stream bytes result).2.mapConsole f)
    rw [writeAndReturn_eq, writeAndReturn_eq]
    unfold mapConsole
    dsimp only
    rw [hwrite]
    rfl
  -- input is compared by the bytes taken and by what is left of the console
  | getByte =>
    have htake : (f c.console).remaining.take 1 = c.console.remaining.take 1 := h.take_eq
    have hread : (f c.console).read c.step 1 = f (c.console.read c.step 1) := h.read_eq
    show (c.mapConsole f).getchar = (c.getchar.1, c.getchar.2.mapConsole f)
    rw [getchar_eq, getchar_eq]
    unfold mapConsole
    dsimp only
    rw [htake, hread]
    rfl
  | read m buffer count =>
    have htake : (f c.console).remaining.take count = c.console.remaining.take count := h.take_eq
    have hread : (f c.console).read c.step count = f (c.console.read c.step count) := h.read_eq
    show { c.mapConsole f with memory := m }.readInto buffer count =
      (({ c with memory := m }.readInto buffer count).1,
        ({ c with memory := m }.readInto buffer count).2.mapConsole f)
    rw [readInto_eq, readInto_eq]
    unfold mapConsole
    dsimp only
    rw [htake, hread]
    rfl

end Call

/-- A routine whose request does not notice a change of the console answers as before. -/
theorem Routine.perform_mapConsole {routine : Routine} {f : Console → Console} {c : Call}
    (h : (routine.request c).Overlooks f c) :
    routine.perform (c.mapConsole f) =
      ((routine.perform c).1, (routine.perform c).2.mapConsole f) := by
  have hrequest : routine.request (c.mapConsole f) = routine.request c :=
    routine.request_with c (f c.console) c.counters
  rw [perform_eq_answer, perform_eq_answer, hrequest, h.answer_eq]

namespace Call

/-! ### The end of the script -/

/-- One of the bytes that a request asks for is not there: the console is read at the end of the
script. -/
def Request.MeetsEnd (c : Call) (q : Request) : Prop :=
  ∃ k < q.wanted, ((c.console.read c.step k).consume c.step).1 = none

instance (c : Call) (q : Request) : Decidable (q.MeetsEnd c) :=
  inferInstanceAs (Decidable (∃ k < q.wanted, _))

theorem Request.meetsEnd_iff {c : Call} {q : Request} :
    q.MeetsEnd c ↔ c.console.remaining.length < q.wanted := by
  have hnone : ∀ k, ((c.console.read c.step k).consume c.step).1 = none ↔
      c.console.remaining.length ≤ k := by
    intro k
    rw [Console.consume_eq, Console.peek, List.head?_eq_none_iff]
    exact List.drop_eq_nil_iff
  constructor
  · rintro ⟨k, hk, hend⟩
    exact Nat.lt_of_le_of_lt ((hnone k).mp hend) hk
  · intro h
    exact ⟨c.console.remaining.length, h, (hnone _).mpr (Nat.le_refl _)⟩

end Call

end Bench65
