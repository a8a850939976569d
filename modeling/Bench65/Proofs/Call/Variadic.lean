import Bench65.Call.Answer
import Bench65.Proofs.Printf.Rendering

/-!
# Opening the frame of a variadic call

`printf` and the `open` hook first take their fixed arguments, and only `printf` goes on to take
others. `openFormat` and `openFrame` are these first parts by themselves: what they find depends on
the memory only, and they change nothing. `printf_eq` and `hostOpen_eq` say how the answers go on
from there.
-/

namespace Bench65

open Printf

/-! ### The end of a frame -/

namespace VariadicFrame

variable {f f' : VariadicFrame} {s : CStack} {m n : Memory}

/-- Taking an argument does not change where the frame ends. -/
theorem close_of_nextWord {w : UInt16} (h : f.nextWord m = .ok (w, f')) :
    f'.close s n = f.close s n := by
  unfold nextWord take at h
  split at h
  · cases h
  · cases h
    rfl

theorem close_of_ofCall {y fixed : UInt8} (h : ofCall s m y fixed = .ok f) :
    f.close s n = s.setPointer n (s.pointer m + y.toUInt16) := by
  unfold ofCall at h
  split at h
  · cases h
  · split at h
    · cases h
    · cases h
      rfl

end VariadicFrame

namespace Call

/-! ### Single arguments -/

theorem run_nextInt_eq (s : FormatState) :
    (fetch frameSource.nextInt).run s =
      match s.frame.nextWord s.memory with
      | .ok (a, frame) => .ok a { s with frame }
      | .error reason => .error (.argument reason) s := by
  rw [run_fetch]
  unfold frameSource takeArgument EStateM.run
  dsimp only
  cases s.frame.nextWord s.memory with
  | ok taken => rfl
  | error reason => rfl

theorem run_nextInt {s : FormatState} {a : UInt16} {frame : VariadicFrame}
    (h : s.frame.nextWord s.memory = .ok (a, frame)) :
    (fetch frameSource.nextInt).run s = .ok a { s with frame } := by
  rw [run_nextInt_eq, h]

theorem run_text (a : UInt16) (most : Option Nat) (s : FormatState) :
    (fetch (frameSource.text a most)).run s =
      match textAt s.memory a most with
      | .ok text => .ok text s
      | .error reason => .error (.argument reason) s := by
  rw [run_fetch]
  unfold frameSource EStateM.run
  dsimp only
  cases textAt s.memory a most with
  | ok text => rfl
  | error reason => rfl

theorem textAt_of_run_text {a : UInt16} {most : Option Nat} {s s' : FormatState}
    {text : List UInt8} (h : (fetch (frameSource.text a most)).run s = .ok text s') :
    textAt s.memory a most = .ok text := by
  rw [run_text] at h
  cases htext : textAt s.memory a most with
  | error reason =>
    rw [htext] at h
    cases h
  | ok text =>
    rw [htext] at h
    cases h
    rfl

/-! ### Fixed arguments -/

/-- The frame of a `printf` call behind its first argument, and the format that argument leads
to. -/
def openFormat (c : Call) : Except Violation.Reason (VariadicFrame × List UInt8) := do
  let frame ← VariadicFrame.ofCall c.stack c.memory c.registers.y 2
  let (pointer, frame) ← frame.nextWord c.memory
  let format ← textAt c.memory pointer none
  pure (frame, format)

/-- The frame of an `open` call, its name and flags taken, the name's text found to end. -/
def openFrame (c : Call) : Except Violation.Reason VariadicFrame := do
  let frame ← VariadicFrame.ofCall c.stack c.memory c.registers.y 4
  let (name, frame) ← frame.nextWord c.memory
  let (_, frame) ← frame.nextWord c.memory
  let _ ← textAt c.memory name none
  pure frame

theorem close_of_openFormat {c : Call} {frame : VariadicFrame} {format : List UInt8}
    (h : c.openFormat = .ok (frame, format)) (n : Memory) :
    frame.close c.stack n =
      c.stack.setPointer n (c.stack.pointer c.memory + c.registers.y.toUInt16) := by
  unfold openFormat at h
  simp only [bind, Except.bind, pure, Except.pure] at h
  split at h
  · cases h
  rename_i opened hopened
  split at h
  · cases h
  rename_i first hfirst
  split at h
  · cases h
  cases h
  have hclose := VariadicFrame.close_of_nextWord (s := c.stack) (n := n) hfirst
  rw [hclose, VariadicFrame.close_of_ofCall hopened]

theorem close_of_openFrame {c : Call} {frame : VariadicFrame} (h : c.openFrame = .ok frame)
    (n : Memory) :
    frame.close c.stack n =
      c.stack.setPointer n (c.stack.pointer c.memory + c.registers.y.toUInt16) := by
  -- only the path on which every fetch succeeds leads to a frame
  unfold openFrame at h
  simp only [bind, Except.bind, pure, Except.pure] at h
  split at h
  · cases h
  rename_i opened hopened
  split at h
  · cases h
  rename_i name hname
  split at h
  · cases h
  rename_i flags hflags
  split at h
  · cases h
  cases h
  -- a fetch moves on within the frame, and closing it counts from its base
  have hsecond := VariadicFrame.close_of_nextWord (s := c.stack) (n := n) hflags
  have hfirst := VariadicFrame.close_of_nextWord (s := c.stack) (n := n) hname
  rw [hsecond, hfirst, VariadicFrame.close_of_ofCall hopened]

/-! ### Answers -/

theorem run_printfText (s : FormatState) :
    (printfText frameSource).run s =
      match s.frame.nextWord s.memory with
      | .error reason => .error (.argument reason) s
      | .ok (pointer, frame) =>
        match textAt s.memory pointer none with
        | .error reason => .error (.argument reason) { s with frame }
        | .ok format => (Printf.format frameSource format).run { s with frame } := by
  unfold printfText
  rw [EStateM.run_bind, run_nextInt_eq]
  cases s.frame.nextWord s.memory with
  | error reason => rfl
  | ok first =>
    dsimp only
    rw [EStateM.run_bind, run_text]
    cases textAt s.memory first.1 none with
    | error reason => rfl
    | ok format => rfl

theorem run_openArguments (s : FormatState) :
    (openArguments frameSource).run s =
      match s.frame.nextWord s.memory with
      | .error reason => .error (.argument reason) s
      | .ok (name, frame) =>
        match frame.nextWord s.memory with
        | .error reason => .error (.argument reason) { s with frame }
        | .ok (_, frame) =>
          match textAt s.memory name none with
          | .error reason => .error (.argument reason) { s with frame }
          | .ok _ => .ok () { s with frame } := by
  unfold openArguments
  rw [EStateM.run_bind, run_nextInt_eq]
  cases s.frame.nextWord s.memory with
  | error reason => rfl
  | ok first =>
    dsimp only
    rw [EStateM.run_bind, run_nextInt_eq]
    dsimp only
    cases first.2.nextWord s.memory with
    | error reason => rfl
    | ok second =>
      dsimp only
      rw [EStateM.run_bind, run_text]
      cases textAt s.memory first.1 none with
      | error reason => rfl
      | ok text => rfl

variable (c : Call)

/-- `printf` renders the format it has found with the arguments behind the first one. -/
theorem printf_eq :
    c.printf =
      match c.openFormat with
      | .error reason => c.refuse .printf reason
      | .ok (frame, format) =>
        match (Printf.format frameSource format).run ⟨frame, c.memory⟩ with
        | .error e s => (.error (failure .printf e), { c with memory := s.memory })
        | .ok text s =>
          { c with memory := frame.close c.stack s.memory }.writeAndReturn .stdout text
            UInt16.ofNat := by
  unfold printf variadic openFormat
  simp only [run_printfText, bind, Except.bind]
  cases VariadicFrame.ofCall c.stack c.memory c.registers.y 2 with
  | error reason => rfl
  | ok frame =>
    dsimp only
    cases hword : frame.nextWord c.memory with
    | error reason => rfl
    | ok first =>
      dsimp only
      cases textAt c.memory first.1 none with
      | error reason => rfl
      | ok format =>
        simp only [pure, Except.pure, VariadicFrame.close_of_nextWord hword]
        cases (Printf.format frameSource format).run ⟨first.2, c.memory⟩ with
        | ok text s => rfl
        | error e s => rfl

/-- `open` removes its frame if it has found its arguments. -/
theorem hostOpen_eq :
    c.hostOpen =
      match c.openFrame with
      | .error reason => c.refuse .hostOpen reason
      | .ok frame => { c with memory := frame.close c.stack c.memory }.goBackWith minusOne := by
  unfold hostOpen variadic openFrame
  simp only [run_openArguments, bind, Except.bind]
  cases VariadicFrame.ofCall c.stack c.memory c.registers.y 4 with
  | error reason => rfl
  | ok frame =>
    dsimp only
    cases hname : frame.nextWord c.memory with
    | error reason => rfl
    | ok first =>
      dsimp only
      cases hflags : first.2.nextWord c.memory with
      | error reason => rfl
      | ok second =>
        dsimp only
        cases textAt c.memory first.1 none with
        | error reason => rfl
        | ok text =>
          simp only [pure, Except.pure, VariadicFrame.close_of_nextWord hflags,
            VariadicFrame.close_of_nextWord hname]

end Call

end Bench65
