import Bench65.TestCase
import Mathlib.Order.Bounds.Basic

/-!
# Judging

* `TestCase.judge_specification`: a run passes exactly if it ended in the expected way and wrote
  what was expected, and a run that does not pass is reported by what is wrong with it.

`DiffersAt` says where two streams differ first; `firstDifference_eq_some_iff` finds that place.
`Expectation.Judges` has one rule for each way a run can compare with what was expected of it;
`judges_judge` and `Judges.eq_judge` say that it relates every run to its verdict and to no other.
-/

namespace Bench65

/-! ### The first difference -/

/-- Two streams have `offset` bytes in common, no more, and then go on with the bytes given, where
`none` stands for the end of the stream. -/
structure DiffersAt (expected actual : List UInt8) (offset : Nat) (e a : Option UInt8) : Prop where
  isGreatest : IsGreatest {n | ∃ p, p.length = n ∧ p <+: expected ∧ p <+: actual} offset
  expected_eq : e = expected[offset]?
  actual_eq : a = actual[offset]?
  ne : e ≠ a

section FirstDifference

variable {expected actual : List UInt8}

theorem exists_length_eq_commonLength (expected actual : List UInt8) :
    ∃ p, p.length = commonLength expected actual ∧ p <+: expected ∧ p <+: actual := by
  fun_induction commonLength expected actual with
  | case1 expected b actual ih =>
    obtain ⟨p, hlength, hexpected, hactual⟩ := ih
    refine ⟨b :: p, congrArg (· + 1) hlength, ?_, ?_⟩
    · exact List.cons_prefix_cons.mpr ⟨rfl, hexpected⟩
    · exact List.cons_prefix_cons.mpr ⟨rfl, hactual⟩
  | _ => exact ⟨[], rfl, List.nil_prefix, List.nil_prefix⟩

theorem length_le_commonLength {p : List UInt8} (hexpected : p <+: expected)
    (hactual : p <+: actual) : p.length ≤ commonLength expected actual := by
  induction p generalizing expected actual with
  | nil => exact Nat.zero_le _
  | cons b p ih =>
    obtain ⟨expected', rfl, hexpected'⟩ := List.cons_prefix_iff.mp hexpected
    obtain ⟨actual', rfl, hactual'⟩ := List.cons_prefix_iff.mp hactual
    rw [commonLength, if_pos rfl]
    exact Nat.succ_le_succ (ih hexpected' hactual')

theorem isGreatest_commonLength (expected actual : List UInt8) :
    IsGreatest {n | ∃ p, p.length = n ∧ p <+: expected ∧ p <+: actual}
      (commonLength expected actual) := by
  refine ⟨exists_length_eq_commonLength expected actual, ?_⟩
  rintro n ⟨p, rfl, hexpected, hactual⟩
  exact length_le_commonLength hexpected hactual

/-- Streams that do not differ behind what they have in common are the same. -/
theorem getElem?_commonLength_eq_iff :
    expected[commonLength expected actual]? = actual[commonLength expected actual]? ↔
      expected = actual := by
  refine ⟨fun h => ?_, fun h => h ▸ rfl⟩
  fun_induction commonLength expected actual with
  | case1 expected b actual ih =>
    rw [List.getElem?_cons_succ, List.getElem?_cons_succ] at h
    rw [ih h]
  | case2 e expected a actual hne =>
    exact absurd (Option.some.inj h) hne
  | case3 expected actual hcons =>
    -- one of the streams is empty, and so the other is
    cases expected with
    | nil => exact (List.head?_eq_none_iff.mp (List.head?_eq_getElem? ▸ h.symm)).symm
    | cons e expected =>
      cases actual with
      | nil => cases h
      | cons a actual => exact (hcons e expected a actual rfl rfl).elim

theorem firstDifference_eq_ite :
    firstDifference expected actual =
      if expected = actual then none
      else some (commonLength expected actual, expected[commonLength expected actual]?,
        actual[commonLength expected actual]?) := by
  unfold firstDifference
  dsimp only
  split_ifs with heq
  · subst heq
    rw [List.getElem?_eq_none (length_le_commonLength List.prefix_rfl List.prefix_rfl)]
  · have hne := mt getElem?_commonLength_eq_iff.mp heq
    cases hexpected : expected[commonLength expected actual]? with
    | some e => rfl
    | none =>
      cases hactual : actual[commonLength expected actual]? with
      | some a => rfl
      | none => exact absurd (hexpected.trans hactual.symm) hne

theorem firstDifference_eq_some_iff {offset : Nat} {e a : Option UInt8} :
    firstDifference expected actual = some (offset, e, a) ↔
      DiffersAt expected actual offset e a := by
  rw [firstDifference_eq_ite]
  constructor
  · intro h
    split_ifs at h with heq
    cases h
    refine ⟨isGreatest_commonLength _ _, rfl, rfl, ?_⟩
    exact fun hsame => heq (getElem?_commonLength_eq_iff.mp hsame)
  · rintro ⟨hgreatest, rfl, rfl, hne⟩
    -- there is only one greatest common length
    obtain rfl := hgreatest.unique (isGreatest_commonLength expected actual)
    exact if_neg fun heq => hne (getElem?_commonLength_eq_iff.mpr heq)

theorem firstDifference_eq_none_iff :
    firstDifference expected actual = none ↔ expected = actual := by
  rw [firstDifference_eq_ite]
  split_ifs with heq
  · exact iff_of_true rfl heq
  · exact iff_of_false (fun h => by cases h) heq

/-- Streams that are not the same differ first at some place. -/
theorem exists_differsAt (h : expected ≠ actual) :
    ∃ offset e a, DiffersAt expected actual offset e a := by
  cases hfirst : firstDifference expected actual with
  | none => exact absurd (firstDifference_eq_none_iff.mp hfirst) h
  | some place =>
    obtain ⟨offset, e, a⟩ := place
    exact ⟨offset, e, a, firstDifference_eq_some_iff.mp hfirst⟩

end FirstDifference

namespace Expectation

variable {x : Expectation} {r : RunResult} {t : Transcript} {d : Mismatch}

/-! ### The streams -/

/-- What was written is what was expected, on standard error if it matters. -/
structure StreamsMet (x : Expectation) (t : Transcript) : Prop where
  stdout_eq : t.stdout = x.output
  stderr_eq : ∀ expected, x.errorOutput = some expected → t.stderr = expected

/-- How what was written differs from what was expected. Standard error is looked at only if
standard output is as expected. -/
inductive StreamsDiffer (x : Expectation) (t : Transcript) : Mismatch → Prop
  | output {offset : Nat} {e a : Option UInt8} (h : DiffersAt x.output t.stdout offset e a) :
      StreamsDiffer x t (.output offset e a)
  | errorOutput {expected : List UInt8} {offset : Nat} {e a : Option UInt8}
      (hstdout : t.stdout = x.output) (hexpected : x.errorOutput = some expected)
      (h : DiffersAt expected t.stderr offset e a) :
      StreamsDiffer x t (.errorOutput offset e a)

theorem streamMismatch_eq_none_iff : x.streamMismatch t = none ↔ x.StreamsMet t := by
  rw [streamMismatch, Option.or_eq_none_iff, compareOutput, Option.map_eq_none_iff,
    firstDifference_eq_none_iff]
  constructor
  · rintro ⟨hstdout, hstderr⟩
    refine ⟨hstdout.symm, fun expected hexpected => ?_⟩
    rw [hexpected] at hstderr
    change (firstDifference expected t.stderr).bind _ = none at hstderr
    cases hfirst : firstDifference expected t.stderr with
    | none => exact (firstDifference_eq_none_iff.mp hfirst).symm
    | some place =>
      rw [hfirst] at hstderr
      cases hstderr
  · rintro ⟨hstdout, hstderr⟩
    refine ⟨hstdout.symm, ?_⟩
    -- standard error has to agree only if something is expected on it
    cases hexpected : x.errorOutput with
    | none => rfl
    | some expected =>
      change (firstDifference expected t.stderr).bind _ = none
      rw [firstDifference_eq_none_iff.mpr (hstderr expected hexpected).symm]
      rfl

theorem streamMismatch_eq_some_iff : x.streamMismatch t = some d ↔ x.StreamsDiffer t d := by
  rw [streamMismatch, Option.or_eq_some_iff, compareOutput, Option.map_eq_none_iff,
    firstDifference_eq_none_iff, Option.map_eq_some_iff]
  constructor
  · rintro (⟨⟨offset, e, a⟩, hfirst, rfl⟩ | ⟨hstdout, hstderr⟩)
    · exact .output (firstDifference_eq_some_iff.mp hfirst)
    · obtain ⟨expected, hexpected, hstderr⟩ := Option.bind_eq_some_iff.mp hstderr
      obtain ⟨⟨offset, e, a⟩, hfirst, hd⟩ := Option.bind_eq_some_iff.mp hstderr
      cases hd
      exact .errorOutput hstdout.symm hexpected (firstDifference_eq_some_iff.mp hfirst)
  · intro h
    cases h with
    | output h => exact .inl ⟨_, firstDifference_eq_some_iff.mpr h, rfl⟩
    | errorOutput hstdout hexpected h =>
      refine .inr ⟨hstdout.symm, Option.bind_eq_some_iff.mpr ⟨_, hexpected, ?_⟩⟩
      exact Option.bind_eq_some_iff.mpr ⟨_, firstDifference_eq_some_iff.mpr h, rfl⟩

/-! ### The verdict -/

/-- The run ended in the way that is expected, as far as its streams matter then. -/
inductive Ended (x : Expectation) : Outcome → Prop
  | exited {status : Int} (hfault : x.fault = none) : Ended x (.exited status)
  | faulted {fault : Fault} (hfault : x.fault = some fault.kind) : Ended x (.faulted fault)

/-- The verdicts on a run. -/
inductive Judges (x : Expectation) (r : RunResult) : Verdict → Prop
  | exited (hfault : x.fault = none) (houtcome : r.outcome = .exited x.status)
      (hstreams : x.StreamsMet r.transcript) : Judges x r .pass
  | faulted {fault : Fault} (hfault : x.fault = some fault.kind)
      (houtcome : r.outcome = .faulted fault) (hstreams : x.StreamsMet r.transcript) :
      Judges x r .pass
  | streams {d : Mismatch} (hended : x.Ended r.outcome)
      (hstreams : x.StreamsDiffer r.transcript d) : Judges x r (.fail d)
  | status {status : Int} (hfault : x.fault = none) (houtcome : r.outcome = .exited status)
      (hstreams : x.StreamsMet r.transcript) (hstatus : status ≠ x.status) :
      Judges x r (.fail (.exitStatus x.status status))
  | missingFault {kind : FaultKind} {status : Int} (hfault : x.fault = some kind)
      (houtcome : r.outcome = .exited status) : Judges x r (.fail (.missingFault kind status))
  | timeout {steps : Nat} (hfault : x.fault ≠ some .timeout)
      (houtcome : r.outcome = .faulted (.timeout steps)) : Judges x r (.timeout steps)
  | error {fault : Fault} (hfault : x.fault ≠ some fault.kind) (hkind : fault.kind ≠ .timeout)
      (houtcome : r.outcome = .faulted fault) : Judges x r (.error (.ofFault fault))

theorem judges_judge (x : Expectation) (r : RunResult) : x.Judges r (x.judge r) := by
  unfold judge
  dsimp only
  cases houtcome : r.outcome with
  | faulted fault =>
    dsimp only
    -- a fault that was expected leaves the streams to compare, any other is the verdict
    by_cases hfault : x.fault = some fault.kind
    · rw [if_pos hfault]
      cases hstreams : x.streamMismatch r.transcript with
      | none => exact .faulted hfault houtcome (streamMismatch_eq_none_iff.mp hstreams)
      | some d =>
        exact .streams (houtcome ▸ .faulted hfault) (streamMismatch_eq_some_iff.mp hstreams)
    · rw [if_neg hfault]
      cases fault with
      | timeout steps => exact .timeout hfault houtcome
      | illegalInstruction a opcode => exact .error hfault nofun houtcome
      | contractViolation a violation => exact .error hfault nofun houtcome
  | exited status =>
    cases hfault : x.fault with
    | some kind => exact .missingFault hfault houtcome
    | none =>
      dsimp only
      cases hstreams : x.streamMismatch r.transcript with
      | some d =>
        exact .streams (houtcome ▸ .exited hfault) (streamMismatch_eq_some_iff.mp hstreams)
      | none =>
        dsimp only
        have hmet := streamMismatch_eq_none_iff.mp hstreams
        by_cases hstatus : status = x.status
        · rw [if_pos hstatus]
          exact .exited hfault (hstatus ▸ houtcome) hmet
        · rw [if_neg hstatus]
          exact .status hfault houtcome hmet hstatus

theorem Judges.eq_judge {v : Verdict} (h : x.Judges r v) : v = x.judge r := by
  unfold judge
  cases h with
  | exited hfault houtcome hstreams =>
    rw [houtcome, hfault, streamMismatch_eq_none_iff.mpr hstreams]
    exact (if_pos rfl).symm
  | faulted hfault houtcome hstreams =>
    rw [houtcome, hfault, streamMismatch_eq_none_iff.mpr hstreams]
    exact (if_pos rfl).symm
  | streams hended hstreams =>
    rw [streamMismatch_eq_some_iff.mpr hstreams]
    -- an exit and an expected fault are judged by the same streams
    generalize r.outcome = outcome at hended
    cases hended with
    | exited hfault => rw [hfault]
    | faulted hfault =>
      rw [hfault]
      exact (if_pos rfl).symm
  | status hfault houtcome hstreams hstatus =>
    rw [houtcome, hfault, streamMismatch_eq_none_iff.mpr hstreams]
    exact (if_neg hstatus).symm
  | missingFault hfault houtcome => rw [houtcome, hfault]
  | timeout hfault houtcome =>
    rw [houtcome]
    exact (if_neg hfault).symm
  | @error fault hfault hkind houtcome =>
    rw [houtcome]
    refine Eq.trans ?_ (if_neg hfault).symm
    cases fault with
    | timeout steps => exact absurd rfl hkind
    | _ => rfl

theorem judge_eq_iff {v : Verdict} : x.judge r = v ↔ x.Judges r v :=
  ⟨fun h => h ▸ x.judges_judge r, fun h => h.eq_judge.symm⟩

end Expectation

namespace TestCase

/-- What the verdict on a run of a case says about the run. -/
structure JudgedRight (c : TestCase) (r : RunResult) : Prop where
  pass_iff : c.expectation.judge r = .pass ↔
    r.transcript.stdout = c.expectation.output ∧
    (∀ expected, c.expectation.errorOutput = some expected → r.transcript.stderr = expected) ∧
    (c.expectation.fault = none ∧ r.outcome = .exited c.expectation.status ∨
      ∃ kind fault, c.expectation.fault = some kind ∧ r.outcome = .faulted fault ∧
        fault.kind = kind)
  of_output : ∀ offset e a, c.expectation.judge r = .fail (.output offset e a) →
    DiffersAt c.expectation.output r.transcript.stdout offset e a
  /-- Standard error is blamed only when standard output is as expected. -/
  of_errorOutput : ∀ offset e a, c.expectation.judge r = .fail (.errorOutput offset e a) →
    r.transcript.stdout = c.expectation.output ∧
      ∃ expected, c.expectation.errorOutput = some expected ∧
        DiffersAt expected r.transcript.stderr offset e a
  /-- The exit status is blamed only when both streams are as expected. -/
  of_exitStatus : ∀ expected actual, c.expectation.judge r = .fail (.exitStatus expected actual) →
    c.expectation.StreamsMet r.transcript ∧ r.outcome = .exited actual ∧
      expected = c.expectation.status ∧ actual ≠ expected
  /-- A fault that was not expected is reported as such, whatever was written. -/
  judge_fault : ∀ fault, r.outcome = .faulted fault → c.expectation.fault ≠ some fault.kind →
    (∃ steps, fault = .timeout steps ∧ c.expectation.judge r = .timeout steps) ∨
      fault.kind ≠ .timeout ∧ c.expectation.judge r = .error (.ofFault fault)
  /-- So is an exit in place of a fault. -/
  judge_missingFault : ∀ kind status, c.expectation.fault = some kind →
    r.outcome = .exited status → c.expectation.judge r = .fail (.missingFault kind status)

/-- **Judging is sound and complete.** -/
theorem judge_specification (c : TestCase) (r : RunResult) : c.JudgedRight r where
  pass_iff := by
    rw [Expectation.judge_eq_iff]
    constructor
    · intro h
      cases h with
      | exited hfault houtcome hstreams =>
        exact ⟨hstreams.stdout_eq, hstreams.stderr_eq, .inl ⟨hfault, houtcome⟩⟩
      | faulted hfault houtcome hstreams =>
        exact ⟨hstreams.stdout_eq, hstreams.stderr_eq, .inr ⟨_, _, hfault, houtcome, rfl⟩⟩
    · rintro ⟨hstdout, hstderr, ⟨hfault, houtcome⟩ | ⟨kind, fault, hfault, houtcome, rfl⟩⟩
      · exact .exited hfault houtcome ⟨hstdout, hstderr⟩
      · exact .faulted hfault houtcome ⟨hstdout, hstderr⟩
  of_output := by
    intro offset e a hjudge
    cases Expectation.judge_eq_iff.mp hjudge with
    | streams hended hstreams =>
      cases hstreams with
      | output h => exact h
  of_errorOutput := by
    intro offset e a hjudge
    cases Expectation.judge_eq_iff.mp hjudge with
    | streams hended hstreams =>
      cases hstreams with
      | errorOutput hstdout hexpected h => exact ⟨hstdout, _, hexpected, h⟩
  of_exitStatus := by
    intro expected actual hjudge
    cases Expectation.judge_eq_iff.mp hjudge with
    | streams hended hstreams => cases hstreams
    | status hfault houtcome hstreams hstatus => exact ⟨hstreams, houtcome, rfl, hstatus⟩
  judge_fault := by
    intro fault houtcome hfault
    cases fault with
    | timeout steps =>
      exact .inl ⟨steps, rfl, Expectation.judge_eq_iff.mpr (.timeout hfault houtcome)⟩
    | _ =>
      exact .inr ⟨nofun, Expectation.judge_eq_iff.mpr (.error hfault nofun houtcome)⟩
  judge_missingFault := fun kind status hfault houtcome =>
    Expectation.judge_eq_iff.mpr (.missingFault hfault houtcome)

/-- A program that writes `A` and exits, where `AB` was expected. -/
theorem judge_specification_cutShort :
    ∃ (c : TestCase) (r : RunResult), c.expectation.judge r = .fail (.output 1 (some 66) none) ∧
      DiffersAt [65, 66] [65] 1 (some 66) none := by
  let c : TestCase := ⟨"short", Image.raw [0x60] 0x200 0x200 .nmos, [], [],
    ⟨[65, 66], none, 0, none⟩, none, FailurePlan.none⟩
  let r : RunResult := ⟨⟨#[⟨1, .stdout, [65]⟩], #[]⟩, .exited 0, Counters.zero⟩
  have hjudge : c.expectation.judge r = .fail (.output 1 (some 66) none) := by decide
  exact ⟨c, r, hjudge, (judge_specification c r).of_output _ _ _ hjudge⟩

end TestCase

end Bench65
