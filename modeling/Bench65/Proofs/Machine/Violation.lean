import Bench65.Proofs.Call.Counts
import Bench65.Proofs.Machine.Console

/-!
# Violated contracts

* `violation_contained`: a call that violates its contract ends the run where it is. The registers
  stay as the caller left them, nothing is written or read, and memory changes only where `printf`
  has stored the counts of `%n` conversions before it came to one that it could not render.

`printf` alone can get that far: the other routines that may refuse a call look at their arguments
before they do anything (`Routine.Refuses`).
-/

namespace Bench65

open Printf

namespace Call

/-- How `printf` comes to refuse a call for a reason, after having stored counts. -/
inductive RefusesFormat (c : Call) : Violation.Reason → List CountStore → Prop
  /-- There is no format to be read. -/
  | opening {reason : Violation.Reason} (hopen : c.openFormat = .error reason) :
      RefusesFormat c reason []
  /-- A directive of the format cannot be rendered. Counts were stored for the `%n` before it. -/
  | directive {frame : VariadicFrame} {format text : List UInt8} {before after : List Piece}
      {d : Directive} {s s' : FormatState} {e : Error Violation.Reason}
      {reason : Violation.Reason} {stores : List CountStore}
      (hopen : c.openFormat = .ok (frame, format))
      (hpieces : pieces format = before ++ .directive d :: after)
      (hbefore : (renderPieces frameSource 0 before).run ⟨frame, c.memory⟩ = .ok text s)
      (hfails : (d.render frameSource text.length).run s = .error e s')
      (hreason : failure .printf e = .violation ⟨.printf, reason⟩)
      (hstores : stores = countStores 0 ⟨frame, c.memory⟩ before)
      (hbytes : stores.map CountStore.bytes = before.filterMap countBytes?) :
      RefusesFormat c reason stores

theorem routine_of_failure {routine : Routine} {e : Error Violation.Reason} {violation : Violation}
    (h : failure routine e = .violation violation) : violation.routine = routine := by
  cases e with
  | tooLong => cases h
  | _ =>
    cases h
    rfl

theorem requestPrintf_eq_refuse {c : Call} {m : Memory} {violation : Violation}
    (h : c.requestPrintf = .refuse m (.violation violation)) :
    violation.routine = .printf ∧ ∃ stores, c.RefusesFormat violation.reason stores ∧
      m = stores.foldl CountStore.apply c.memory := by
  unfold requestPrintf at h
  cases hopen : c.openFormat with
  | error reason =>
    simp only [hopen] at h
    cases h
    exact ⟨rfl, [], .opening hopen, rfl⟩
  | ok opened =>
    obtain ⟨frame, format⟩ := opened
    simp only [hopen] at h
    cases hrun : (Printf.format frameSource format).run ⟨frame, c.memory⟩ with
    | ok text s =>
      rw [hrun] at h
      cases h
    | error e s =>
      rw [hrun] at h
      obtain ⟨rfl, hviolation⟩ := Request.refuse.inj h
      have hroutine := routine_of_failure hviolation
      obtain ⟨routine, reason⟩ := violation
      obtain rfl := hroutine
      -- the pieces before the failing directive were rendered, and their counts are the stores
      obtain ⟨before, d, after, text, s₁, hpieces, hbefore, hfails⟩ :=
        exists_failing_directive hrun
      rw [Nat.zero_add] at hfails
      obtain ⟨hbytes, hmemory⟩ := renderPieces_ok hbefore
      refine ⟨rfl, _, .directive hopen hpieces hbefore hfails hviolation rfl hbytes, ?_⟩
      exact (memory_render_error hfails).trans hmemory

/-- Only the request to be refused has no answer. -/
theorem Request.answer_eq_error {c c' : Call} {q : Request} {failure : Failure}
    (h : q.answer c = (.error failure, c')) :
    q = .refuse c'.memory failure ∧ c' = { c with memory := c'.memory } := by
  cases q with
  | refuse m failure =>
    cases h
    exact ⟨rfl, rfl⟩
  | goBack m w => cases h
  | exit status => cases h
  | write m stream bytes result =>
    rw [Request.answer, writeAndReturn_eq] at h
    cases h
  | getByte =>
    rw [Request.answer, getchar_eq] at h
    cases h
  | read m buffer count =>
    rw [Request.answer, readInto_eq] at h
    cases h

end Call

/-- How a routine comes to refuse a call, having stored counts. -/
inductive Routine.Refuses (c : Call) : Routine → Violation → List Call.CountStore → Prop
  /-- `printf` may have rendered a part of its format. -/
  | format {reason : Violation.Reason} {stores : List Call.CountStore}
      (hformat : c.RefusesFormat reason stores) : Refuses c .printf ⟨.printf, reason⟩ stores
  /-- `puts` does not find the end of its text. -/
  | text {reason : Violation.Reason}
      (htext : Call.textAt c.memory c.registers.ax none = .error reason) :
      Refuses c .puts ⟨.puts, reason⟩ []
  /-- `open` does not find its arguments. -/
  | arguments {reason : Violation.Reason} (hopen : c.openFrame = .error reason) :
      Refuses c .hostOpen ⟨.hostOpen, reason⟩ []

theorem Routine.request_eq_refuse {routine : Routine} {c : Call} {m : Memory}
    {violation : Violation} (h : routine.request c = .refuse m (.violation violation)) :
    ∃ stores, routine.Refuses c violation stores ∧
      m = stores.foldl Call.CountStore.apply c.memory := by
  cases routine with
  | printf =>
    obtain ⟨hroutine, stores, hformat, hmemory⟩ := Call.requestPrintf_eq_refuse h
    obtain ⟨routine, reason⟩ := violation
    subst hroutine
    exact ⟨stores, .format hformat, hmemory⟩
  | puts =>
    rw [request, Call.requestPuts] at h
    cases htext : Call.textAt c.memory c.registers.ax none with
    | error reason =>
      rw [htext] at h
      cases h
      exact ⟨[], .text htext, rfl⟩
    | ok text =>
      rw [htext] at h
      cases h
  | hostOpen =>
    rw [request, Call.requestOpen] at h
    cases hopen : c.openFrame with
    | error reason =>
      rw [hopen] at h
      cases h
      exact ⟨[], .arguments hopen, rfl⟩
    | ok frame =>
      rw [hopen] at h
      cases h
  | hostRead =>
    rw [request, Call.requestRead] at h
    split at h
    · cases h
    · cases h
  | hostWrite =>
    rw [request, Call.requestWrite] at h
    split at h
    · cases h
    · cases h
  | _ => cases h

namespace Machine

variable {m : Machine} {routine : Routine} {violation : Violation}

/-- What becomes of a machine whose next step calls a routine that refuses the call. -/
structure Contained (m m' : Machine) (routine : Routine) (violation : Violation) : Prop where
  state_eq : m'.cpu.state = .faulted (.contractViolation m.cpu.registers.pc violation)
  registers_eq : m'.cpu.registers = m.cpu.registers
  console_eq : m'.console = m.console
  bytesRead_eq : m'.counters.bytesRead = m.counters.bytesRead
  bytesWritten_eq : m'.counters.bytesWritten = m.counters.bytesWritten
  writeFailures_eq : m'.counters.writeFailures = m.counters.writeFailures
  /-- Memory holds the counts that were stored, and is otherwise unchanged. -/
  memory : ∃ stores, routine.Refuses m.atTrap.call violation stores ∧
    m'.memory = stores.foldl Call.CountStore.apply m.memory ∧
    ∀ a, (∀ store ∈ stores, store.bytes ≤ (a - store.target).toNat) →
      m'.memory.read a = m.memory.read a

/-- A refused call ends the run, with nothing but memory changed. -/
theorem Settled.contained_step (hm : m.Settled) (hcalled : m.called? = some routine)
    (hanswer : (routine.answer m.atTrap.call).1 = .error (.violation violation)) :
    m.Contained m.step routine violation := by
  rw [answer_call_atTrap] at hanswer
  have hperform : routine.perform (m.trapCall routine) =
      (.error (.violation violation), (routine.perform (m.trapCall routine)).2) := by
    rw [← hanswer]
  have hstep : m.step = m.afterAnswer (routine.perform (m.trapCall routine)).2
      (.faulted (.contractViolation m.cpu.registers.pc violation)) := by
    rw [hm.step_of_called? hcalled, hperform]
  rw [Routine.perform_eq_answer] at hperform
  obtain ⟨hrequest, hcall⟩ := Call.Request.answer_eq_error hperform
  -- what is asked for does not depend on the call having been counted
  have hrequest' : routine.request m.atTrap.call = _ :=
    (routine.request_with m.atTrap.call m.console _).symm.trans hrequest
  obtain ⟨stores, hrefuses, hmemory⟩ := Routine.request_eq_refuse hrequest'
  rw [← Routine.perform_eq_answer] at hcall hmemory
  rw [hstep, hcall, hmemory]
  exact ⟨rfl, rfl, rfl, rfl, rfl, rfl, stores, hrefuses, rfl, fun _ ha =>
    Call.read_foldl_apply m.memory ha⟩

/-! ### Programs -/

variable {image : Image} {args : List (List UInt8)} {settings : Settings} {program : Program}

/-- **A violated contract ends the run where it is.** -/
theorem violation_contained (hload : Program.load image args settings = .ok program)
    (script : List UInt8) (plan : FailurePlan) (n : Nat)
    (hcalled : (step^[n] (start program script plan)).called? = some routine)
    (hanswer : (routine.answer (step^[n] (start program script plan)).atTrap.call).1 =
      .error (.violation violation)) :
    (step^[n] (start program script plan)).Contained (start program script plan).run routine
      violation := by
  have hm := settled_start hload script plan
  have hstep := (hm.iterate n).contained_step hcalled hanswer
  have hfinished : (step^[n + 1] (start program script plan)).isFinished = true := by
    rw [Function.iterate_succ_apply', isFinished, hstep.state_eq]
    rfl
  rw [hm.run_eq_of_isFinished hfinished, Function.iterate_succ_apply']
  exact hstep

/-- A program that calls `printf` with its arguments below the format: `LDY #4`, and `printf`. -/
def printsArgument : Image :=
  ((Image.raw [0xA0, 4] 0x200 0x200 .nmos).withPointerCell 0x80).withSymbols ⟨[("_printf", 0x202)]⟩

/-- The format is the program's argument, and the target of `%n` its number of arguments. The count
of the two bytes before `%n` stays stored at address 1 when `%q` is refused. -/
theorem violation_contained_count :
    ∃ program m, Program.load printsArgument [Ascii.bytes "ab%n%q"] Settings.default =
        .ok program ∧
      m = (start program [] FailurePlan.none).run ∧
      m.memory.readWord 1 = 2 ∧
      (step^[1] (start program [] FailurePlan.none)).Contained m .printf
        ⟨.printf, .unsupportedConversion (Ascii.byte 'q')⟩ := by
  obtain ⟨program, hload, hcalled, hanswer, hfinished, hword⟩ : ∃ program,
      Program.load printsArgument [Ascii.bytes "ab%n%q"] Settings.default = .ok program ∧
      (step^[1] (start program [] FailurePlan.none)).called? = some .printf ∧
      (Routine.printf.answer (step^[1] (start program [] FailurePlan.none)).atTrap.call).1 =
        .error (.violation ⟨.printf, .unsupportedConversion (Ascii.byte 'q')⟩) ∧
      (step^[2] (start program [] FailurePlan.none)).isFinished = true ∧
      (step^[2] (start program [] FailurePlan.none)).memory.readWord 1 = 2 :=
    ⟨_, rfl, by decide +kernel⟩
  have hcontained := violation_contained hload [] FailurePlan.none 1 hcalled hanswer
  refine ⟨program, _, hload, rfl, ?_, hcontained⟩
  rw [(settled_start hload [] FailurePlan.none).run_eq_of_isFinished hfinished]
  exact hword

end Machine

end Bench65
