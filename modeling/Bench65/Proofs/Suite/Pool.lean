import Bench65.Suite.Pool
import Mathlib.Algebra.BigOperators.Group.List.Basic
import Mathlib.Algebra.GroupWithZero.Nat
import Mathlib.Data.List.Nodup
import Mathlib.Data.List.Perm.Basic

/-!
# Suites shared out among workers

* `shared_suite`: in whatever order the workers act, once they have all stopped every slot holds
  the report of its own case and each case has been run exactly once, so that the suite's report is
  the one that a single worker comes to. The workers do stop.

An action of a worker is one of the five of `Pool.Step`. What a pool and the numbers of the cases
run so far have to do with each other is `Pool.Accounted`: a number that was given out belongs to
a worker that is about to run its case, or the case was run; and a case that was run left its
report with a worker or in its slot. Every action keeps the accounts (`Step.accounted`) and brings
the workers one action closer to the end (`Step.actionsLeft`). When no worker has anything in hand
any more, the accounts say that all slots are filled.
-/

namespace Bench65

/-- The report is that of the case of a number. -/
def SuiteCase.IsReport (cases : List SuiteCase) (s : Settings) (i : Nat) (r : CaseReport) : Prop :=
  ∃ c, cases[i]? = some c ∧ SuiteCase.run c s = r

namespace Worker

/-- A number summed over some workers. -/
def total (f : Worker → Nat) (workers : List Worker) : Nat :=
  (workers.map f).sum

/-- What becomes of a sum when one worker is replaced. -/
theorem total_set (f : Worker → Nat) {workers : List Worker} {k : Nat} {old : Worker}
    (h : workers[k]? = some old) (new : Worker) :
    total f (workers.set k new) + f old = total f workers + f new := by
  unfold total
  induction workers generalizing k with
  | nil => cases h
  | cons w rest ih =>
    cases k with
    | zero =>
      obtain rfl : w = old := Option.some.inj h
      simp only [List.set_cons_zero, List.map_cons, List.sum_cons]
      omega
    | succ k =>
      have hrest := ih h
      simp only [List.set_cons_succ, List.map_cons, List.sum_cons]
      omega

theorem total_eq_zero {f : Worker → Nat} {workers : List Worker} (h : ∀ w ∈ workers, f w = 0) :
    total f workers = 0 := by
  apply List.sum_eq_zero
  intro n hn
  obtain ⟨w, hw, rfl⟩ := List.mem_map.mp hn
  exact h w hw

variable {cases : List SuiteCase} {s : Settings} {next : Nat} {w : Worker}

/-- How often a worker is about to run the case of a number: once or not at all. -/
def aboutToRun (i : Nat) : Worker → Nat
  | running j _ => if j = i then 1 else 0
  | _ => 0

/-- How often a worker has the report of a case in hand. -/
def aboutToStore (i : Nat) : Worker → Nat
  | storing j _ => if j = i then 1 else 0
  | _ => 0

/-- How often a worker has stopped. -/
def stops : Worker → Nat
  | stopped => 1
  | _ => 0

theorem total_stops_le (workers : List Worker) : total stops workers ≤ workers.length := by
  unfold total
  induction workers with
  | nil => exact Nat.le_refl _
  | cons w rest ih =>
    have hw : w.stops ≤ 1 := by
      cases w with
      | stopped => exact Nat.le_refl _
      | _ => exact Nat.zero_le _
    simp only [List.map_cons, List.sum_cons, List.length_cons]
    omega

/-- How many actions a worker has left if it takes no more cases. -/
def actionsLeft : Worker → Nat
  | taking => 1
  | running _ _ => 3
  | storing _ _ => 2
  | stopped => 0

/-- What a worker has in hand is the case of its number or the report of that case, and it has not
stopped before all numbers were given out. -/
def Honest (cases : List SuiteCase) (s : Settings) (next : Nat) : Worker → Prop
  | taking => True
  | running i c => cases[i]? = some c
  | storing i r => SuiteCase.IsReport cases s i r
  | stopped => cases.length ≤ next

theorem Honest.mono {later : Nat} (h : w.Honest cases s next) (hle : next ≤ later) :
    w.Honest cases s later := by
  cases w with
  | stopped => exact Nat.le_trans h hle
  | _ => exact h

end Worker

namespace Pool

variable {cases : List SuiteCase} {s : Settings} {p q : Pool} {k : Nat} {ran : List Nat}

/-! ### Actions -/

/-- The number of the case that an action runs, if it runs one. -/
def runs (p : Pool) (k : Nat) : List Nat :=
  match p.workers[k]? with
  | some (.running i _) => [i]
  | _ => []

/-- The numbers of the cases run by a schedule, one after the other. -/
def casesRun (cases : List SuiteCase) (s : Settings) : List Nat → Pool → List Nat
  | [], _ => []
  | k :: schedule, p => p.runs k ++ casesRun cases s schedule (act cases s p k)

/-- The actions of a worker, with the numbers of the cases run. -/
inductive Step (cases : List SuiteCase) (s : Settings) (p : Pool) (k : Nat) :
    List Nat → Pool → Prop
  /-- A worker that has stopped does nothing. -/
  | idle (hworker : ∀ w, p.workers[k]? = some w → w = .stopped) : Step cases s p k [] p
  /-- A worker takes the number of a case. -/
  | take (c : SuiteCase) (hworker : p.workers[k]? = some .taking)
      (hcase : cases[p.next]? = some c) :
      Step cases s p k []
        { p with next := p.next + 1, workers := p.workers.set k (.running p.next c) }
  /-- A worker that finds no more cases stops. -/
  | stop (hworker : p.workers[k]? = some .taking) (hcase : cases.length ≤ p.next) :
      Step cases s p k [] { p with next := p.next + 1, workers := p.workers.set k .stopped }
  /-- A worker runs its case. -/
  | run (i : Nat) (c : SuiteCase) (hworker : p.workers[k]? = some (.running i c)) :
      Step cases s p k [i] { p with workers := p.workers.set k (.storing i (c.run s)) }
  /-- A worker puts its report away. -/
  | store (i : Nat) (r : CaseReport) (hworker : p.workers[k]? = some (.storing i r)) :
      Step cases s p k []
        { p with slots := p.slots.set i (some r), workers := p.workers.set k .taking }

theorem step_act (cases : List SuiteCase) (s : Settings) (p : Pool) (k : Nat) :
    Step cases s p k (p.runs k) (act cases s p k) := by
  unfold act runs
  -- an action without a worker, or of one that has stopped, is none
  cases hworker : p.workers[k]? with
  | none =>
    apply Step.idle
    intro w hw
    rw [hworker] at hw
    cases hw
  | some w =>
    cases w with
    | taking =>
      dsimp only
      cases hcase : cases[p.next]? with
      | none => exact .stop hworker (List.getElem?_eq_none_iff.mp hcase)
      | some c => exact .take c hworker hcase
    | running i c => exact .run i c hworker
    | storing i r => exact .store i r hworker
    | stopped =>
      apply Step.idle
      intro w hw
      rw [hworker] at hw
      exact (Option.some.inj hw).symm

/-! ### Accounts -/

/-- How often a slot is filled: once or not at all. -/
def filled (slots : List (Option CaseReport)) (i : Nat) : Nat :=
  if (slots[i]?.join).isSome then 1 else 0

theorem exists_of_filled {slots : List (Option CaseReport)} {i : Nat} (h : filled slots i = 1) :
    ∃ r, slots[i]? = some (some r) := by
  unfold filled at h
  cases hslot : slots[i]? with
  | none =>
    rw [hslot] at h
    cases h
  | some slot =>
    cases slot with
    | none =>
      rw [hslot] at h
      cases h
    | some r => exact ⟨r, rfl⟩

theorem filled_set_of_ne (slots : List (Option CaseReport)) {i j : Nat} (h : i ≠ j)
    (slot : Option CaseReport) : filled (slots.set i slot) j = filled slots j := by
  unfold filled
  rw [List.getElem?_set_ne h]

theorem filled_set_self {slots : List (Option CaseReport)} {i : Nat} (h : i < slots.length)
    (r : CaseReport) : filled (slots.set i (some r)) i = 1 := by
  unfold filled
  rw [List.getElem?_set_self h]
  rfl

/-- The cases that a pool of workers has run, accounted for. -/
structure Accounted (cases : List SuiteCase) (s : Settings) (p : Pool) (ran : List Nat) : Prop where
  /-- Every case has a slot. -/
  length_slots : p.slots.length = cases.length
  /-- The workers are honest. -/
  honest : ∀ w ∈ p.workers, w.Honest cases s p.next
  /-- A filled slot holds the report of its case. -/
  isReport : ∀ i r, p.slots[i]? = some (some r) → SuiteCase.IsReport cases s i r
  /-- The case of a number given out is about to be run by one worker, or was run. -/
  given : ∀ i < cases.length,
    Worker.total (Worker.aboutToRun i) p.workers + ran.count i = if i < p.next then 1 else 0
  /-- The report of a case that was run is in the hands of one worker, or in its slot. -/
  kept : ∀ i < cases.length,
    Worker.total (Worker.aboutToStore i) p.workers + filled p.slots i = ran.count i
  /-- Nothing else was run. -/
  lt_of_mem : ∀ i ∈ ran, i < cases.length
  /-- The counter stays small: past the last case, it only counts the workers that stop. -/
  next_le : p.next ≤ cases.length + Worker.total Worker.stops p.workers

/-- Workers stay honest when one of them is replaced by an honest one and numbers are given out. -/
theorem honest_set {later : Nat} {w : Worker} (h : ∀ v ∈ p.workers, v.Honest cases s p.next)
    (hle : p.next ≤ later) (hw : w.Honest cases s later) :
    ∀ v ∈ p.workers.set k w, v.Honest cases s later := by
  intro v hv
  rcases List.mem_or_eq_of_mem_set hv with hold | rfl
  · exact (h v hold).mono hle
  · exact hw

/-- A number is given out to the worker that takes its case. -/
theorem Accounted.take {c : SuiteCase} (h : Accounted cases s p ran)
    (hworker : p.workers[k]? = some .taking) (hcase : cases[p.next]? = some c) :
    Accounted cases s
      { p with next := p.next + 1, workers := p.workers.set k (.running p.next c) } ran := by
  have hlt := (List.getElem?_eq_some_iff.mp hcase).1
  refine { h with
    honest := honest_set h.honest (Nat.le_succ _) hcase
    given := ?_
    kept := ?_
    next_le := ?_ }
  · intro i hi
    have hgiven := h.given i hi
    have htotal := Worker.total_set (Worker.aboutToRun i) hworker (.running p.next c)
    simp only [Worker.aboutToRun] at htotal
    dsimp only
    -- the number given out is the one that was next, which nobody had
    split_ifs at * <;> omega
  · intro i hi
    have htotal := Worker.total_set (Worker.aboutToStore i) hworker (.running p.next c)
    rw [← h.kept i hi, Nat.add_right_cancel htotal]
  · exact Nat.le_trans hlt (Nat.le_add_right _ _)

/-- A worker that stops has taken a number past the last case. -/
theorem Accounted.stop (h : Accounted cases s p ran) (hworker : p.workers[k]? = some .taking)
    (hcase : cases.length ≤ p.next) :
    Accounted cases s { p with next := p.next + 1, workers := p.workers.set k .stopped } ran := by
  refine { h with
    honest := honest_set h.honest (Nat.le_succ _) (Nat.le_succ_of_le hcase)
    given := ?_
    kept := ?_
    next_le := ?_ }
  · intro i hi
    have hgiven := h.given i hi
    have htotal := Worker.total_set (Worker.aboutToRun i) hworker .stopped
    have hlt := Nat.lt_of_lt_of_le hi hcase
    rw [if_pos hlt] at hgiven
    rw [Nat.add_right_cancel htotal, hgiven]
    exact (if_pos (Nat.lt_succ_of_lt hlt)).symm
  · intro i hi
    have htotal := Worker.total_set (Worker.aboutToStore i) hworker .stopped
    rw [← h.kept i hi, Nat.add_right_cancel htotal]
  · have hnext := h.next_le
    have htotal := Worker.total_set Worker.stops hworker .stopped
    simp only [Worker.stops] at htotal
    dsimp only
    omega

/-- A case that is run passes from those given out to those run, and its report into the hands of
the worker. -/
theorem Accounted.run {i : Nat} {c : SuiteCase} (h : Accounted cases s p ran)
    (hworker : p.workers[k]? = some (.running i c)) :
    Accounted cases s { p with workers := p.workers.set k (.storing i (c.run s)) }
      (ran ++ [i]) := by
  have hcase : cases[i]? = some c := h.honest _ (List.mem_of_getElem? hworker)
  refine { h with
    honest := honest_set h.honest (Nat.le_refl _) ⟨c, hcase, rfl⟩
    given := ?_
    kept := ?_
    lt_of_mem := ?_
    next_le := ?_ }
  · intro j hj
    have hgiven := h.given j hj
    have htotal := Worker.total_set (Worker.aboutToRun j) hworker (.storing i (c.run s))
    simp only [Worker.aboutToRun] at htotal
    rw [List.count_append, List.count_singleton]
    simp only [beq_iff_eq]
    omega
  · intro j hj
    -- what has been run is in hand until it is stored
    have hkept := h.kept j hj
    have htotal := Worker.total_set (Worker.aboutToStore j) hworker (.storing i (c.run s))
    simp only [Worker.aboutToStore] at htotal
    rw [List.count_append, List.count_singleton]
    simp only [beq_iff_eq]
    omega
  · intro j hj
    rcases List.mem_append.mp hj with hold | hnew
    · exact h.lt_of_mem j hold
    · rw [List.mem_singleton.mp hnew]
      exact (List.getElem?_eq_some_iff.mp hcase).1
  · have htotal := Worker.total_set Worker.stops hworker (.storing i (c.run s))
    rw [Nat.add_right_cancel htotal]
    exact h.next_le

/-- A slot that is filled holds the report of its case. -/
theorem isReport_set {i : Nat} {r : CaseReport} {slots : List (Option CaseReport)}
    (h : ∀ j r', slots[j]? = some (some r') → SuiteCase.IsReport cases s j r')
    (hr : SuiteCase.IsReport cases s i r) :
    ∀ j r', (slots.set i (some r))[j]? = some (some r') → SuiteCase.IsReport cases s j r' := by
  intro j r' hslot
  by_cases hij : i = j
  · subst hij
    have hlt := (List.getElem?_eq_some_iff.mp hslot).1
    rw [List.length_set] at hlt
    rw [List.getElem?_set_self hlt] at hslot
    cases hslot
    exact hr
  · rw [List.getElem?_set_ne hij] at hslot
    exact h j r' hslot

/-- A report passes from the hands of the worker into its slot. -/
theorem Accounted.store {i : Nat} {r : CaseReport} (h : Accounted cases s p ran)
    (hworker : p.workers[k]? = some (.storing i r)) :
    Accounted cases s
      { p with slots := p.slots.set i (some r), workers := p.workers.set k .taking } ran := by
  have hreport : SuiteCase.IsReport cases s i r := h.honest _ (List.mem_of_getElem? hworker)
  refine { h with
    length_slots := ?_
    honest := honest_set h.honest (Nat.le_refl _) trivial
    isReport := isReport_set h.isReport hreport
    given := ?_
    kept := ?_
    next_le := ?_ }
  · rw [List.length_set, h.length_slots]
  · intro j hj
    have htotal := Worker.total_set (Worker.aboutToRun j) hworker .taking
    rw [← h.given j hj, Nat.add_right_cancel htotal]
  · intro j hj
    have hgiven := h.given j hj
    have hkept := h.kept j hj
    have htotal := Worker.total_set (Worker.aboutToStore j) hworker .taking
    simp only [Worker.aboutToStore] at htotal
    dsimp only
    by_cases hij : i = j
    · subst hij
      -- the slot was empty, for the report of its case was in the worker's hands
      rw [filled_set_self (by rw [h.length_slots]; exact hj)]
      rw [if_pos rfl] at htotal
      split_ifs at hgiven <;> omega
    · rw [filled_set_of_ne _ hij]
      rw [if_neg hij] at htotal
      omega
  · have htotal := Worker.total_set Worker.stops hworker .taking
    rw [Nat.add_right_cancel htotal]
    exact h.next_le

/-- Every action keeps the accounts. -/
theorem Step.accounted {now : List Nat} (hstep : Step cases s p k now q)
    (h : Accounted cases s p ran) : Accounted cases s q (ran ++ now) := by
  cases hstep with
  | run i c hworker => exact h.run hworker
  | idle hworker =>
    rw [List.append_nil]
    exact h
  | take c hworker hcase =>
    rw [List.append_nil]
    exact h.take hworker hcase
  | stop hworker hcase =>
    rw [List.append_nil]
    exact h.stop hworker hcase
  | store i r hworker =>
    rw [List.append_nil]
    exact h.store hworker

/-- So does every schedule. -/
theorem Accounted.follow (h : Accounted cases s p ran) (schedule : List Nat) :
    Accounted cases s (follow cases s schedule p) (ran ++ casesRun cases s schedule p) := by
  induction schedule generalizing p ran with
  | nil =>
    rw [casesRun, List.append_nil]
    exact h
  | cons k schedule ih =>
    have hnext := ih ((step_act cases s p k).accounted h)
    rw [List.append_assoc] at hnext
    exact hnext

theorem total_start (cases : List SuiteCase) (jobs : Nat) {f : Worker → Nat}
    (hf : f .taking = 0) : Worker.total f (start cases jobs).workers = 0 := by
  apply Worker.total_eq_zero
  intro w hw
  rw [List.eq_of_mem_replicate hw, hf]

theorem accounted_start (cases : List SuiteCase) (s : Settings) (jobs : Nat) :
    Accounted cases s (start cases jobs) [] where
  length_slots := List.length_replicate
  honest := by
    intro w hw
    rw [List.eq_of_mem_replicate hw]
    trivial
  isReport := by
    intro i r hslot
    have hmem := List.mem_of_getElem? hslot
    cases List.eq_of_mem_replicate hmem
  given := fun i _ => total_start cases jobs rfl
  kept := by
    intro i hi
    -- no slot is filled and no worker has anything
    have hempty : filled (start cases jobs).slots i = 0 := by
      simp [filled, start, hi]
    rw [hempty, total_start cases jobs rfl]
    rfl
  lt_of_mem := fun i hi => absurd hi List.not_mem_nil
  next_le := Nat.zero_le _

/-! ### The end -/

/-- The number of actions until all workers have stopped. -/
def actionsLeft (cases : List SuiteCase) (p : Pool) : Nat :=
  3 * (cases.length - p.next) + Worker.total Worker.actionsLeft p.workers

/-- A worker that has not stopped brings the end closer. -/
theorem Step.actionsLeft {now : List Nat} (hstep : Step cases s p k now q) {w : Worker}
    (hworker : p.workers[k]? = some w) (hbusy : w ≠ .stopped) :
    q.actionsLeft cases + 1 = p.actionsLeft cases := by
  unfold Pool.actionsLeft
  cases hstep with
  | idle hidle => exact absurd (hidle w hworker) hbusy
  | take c htaking hcase =>
    have hlt := (List.getElem?_eq_some_iff.mp hcase).1
    -- taking a case leaves one case less to be taken and one more action for its worker
    have htotal := Worker.total_set Worker.actionsLeft htaking (.running p.next c)
    simp only [Worker.actionsLeft] at htotal
    dsimp only
    omega
  | stop htaking hcase =>
    have htotal := Worker.total_set Worker.actionsLeft htaking .stopped
    simp only [Worker.actionsLeft] at htotal
    dsimp only
    omega
  | run i c hrunning =>
    have htotal := Worker.total_set Worker.actionsLeft hrunning (.storing i (c.run s))
    simp only [Worker.actionsLeft] at htotal
    dsimp only
    omega
  | store i r hstoring =>
    have htotal := Worker.total_set Worker.actionsLeft hstoring .taking
    simp only [Worker.actionsLeft] at htotal
    dsimp only
    omega

theorem isStopped_iff {w : Worker} : w.isStopped = true ↔ w = .stopped := by
  cases w with
  | stopped => exact ⟨fun _ => rfl, fun _ => rfl⟩
  | _ => exact ⟨fun h => (by cases h), fun h => (by cases h)⟩

/-- The workers can always come to the end. -/
theorem exists_isDone (cases : List SuiteCase) (s : Settings) (p : Pool) :
    ∃ schedule, (follow cases s schedule p).isDone = true := by
  induction hleft : p.actionsLeft cases using Nat.strongRecOn generalizing p with
  | ind left ih =>
    cases hdone : p.isDone with
    | true => exact ⟨[], hdone⟩
    | false =>
      -- some worker has not stopped, and it can act
      obtain ⟨w, hw, hbusy⟩ := List.all_eq_false.mp hdone
      obtain ⟨k, hworker⟩ := List.mem_iff_getElem?.mp hw
      rw [isStopped_iff] at hbusy
      have hcloser := (step_act cases s p k).actionsLeft hworker hbusy
      obtain ⟨schedule, hschedule⟩ := ih _ (by omega) (act cases s p k) rfl
      exact ⟨k :: schedule, hschedule⟩

/-- What a suite has come to when all workers have stopped. -/
structure Finished (cases : List SuiteCase) (s : Settings) (p : Pool) (ran : List Nat) : Prop where
  /-- Every slot holds the report of its own case. -/
  slots_eq : p.slots = cases.map fun c => some (c.run s)
  /-- Every case was run exactly once. -/
  ran_perm : ran.Perm (List.range cases.length)
  /-- The report is that of a single worker. -/
  report_eq : p.report cases = runSuite cases s

theorem report_of_slots_eq (hslots : p.slots = cases.map fun c => some (c.run s)) :
    p.report cases = runSuite cases s := by
  rw [report, hslots, List.zipWith_map_right, List.zipWith_self]
  rfl

/-- When all workers have stopped, none of them has anything in hand. -/
theorem total_eq_zero_of_isDone (hdone : p.isDone = true) {f : Worker → Nat}
    (hf : f .stopped = 0) : Worker.total f p.workers = 0 := by
  apply Worker.total_eq_zero
  intro w hw
  rw [isStopped_iff.mp (List.all_eq_true.mp hdone w hw), hf]

/-- A worker stops only when all numbers have been given out, so in the end each case has been run
once. -/
theorem Accounted.count_eq_one (h : Accounted cases s p ran) (hdone : p.isDone = true)
    (hworkers : p.workers ≠ []) {i : Nat} (hi : i < cases.length) : ran.count i = 1 := by
  have hnext : cases.length ≤ p.next := by
    obtain ⟨w, hw⟩ := List.exists_mem_of_ne_nil _ hworkers
    have hhonest := h.honest w hw
    rw [isStopped_iff.mp (List.all_eq_true.mp hdone w hw)] at hhonest
    exact hhonest
  have hgiven := h.given i hi
  rw [total_eq_zero_of_isDone hdone rfl, if_pos (by omega), Nat.zero_add] at hgiven
  exact hgiven

theorem Accounted.finished (h : Accounted cases s p ran) (hdone : p.isDone = true)
    (hworkers : p.workers ≠ []) : Finished cases s p ran := by
  have hcount : ∀ i < cases.length, ran.count i = 1 := fun i hi =>
    h.count_eq_one hdone hworkers hi
  have hfilled : ∀ i < cases.length, filled p.slots i = 1 := by
    intro i hi
    have hkept := h.kept i hi
    rw [total_eq_zero_of_isDone hdone rfl, Nat.zero_add, hcount i hi] at hkept
    exact hkept
  have hslots : p.slots = cases.map fun c => some (c.run s) := by
    apply List.ext_getElem
    · rw [h.length_slots, List.length_map]
    · intro i hi hi'
      rw [List.length_map] at hi'
      obtain ⟨r, hr⟩ := exists_of_filled (hfilled i hi')
      obtain ⟨c, hc, rfl⟩ := h.isReport i r hr
      rw [List.getElem?_eq_getElem hi] at hr
      rw [List.getElem?_eq_getElem hi'] at hc
      rw [Option.some.inj hr, List.getElem_map, Option.some.inj hc]
  have hperm : ran.Perm (List.range cases.length) := by
    rw [List.perm_iff_count]
    intro i
    rw [List.nodup_range.count]
    by_cases hi : i < cases.length
    · rw [hcount i hi, if_pos (List.mem_range.mpr hi)]
    · rw [if_neg (by simpa using hi)]
      exact List.count_eq_zero_of_not_mem fun hmem => hi (h.lt_of_mem i hmem)
  exact ⟨hslots, hperm, report_of_slots_eq hslots⟩

theorem Step.length_workers {now : List Nat} (hstep : Step cases s p k now q) :
    q.workers.length = p.workers.length := by
  cases hstep with
  | idle hworker => rfl
  | _ => exact List.length_set

theorem length_workers_follow (schedule : List Nat) :
    (follow cases s schedule p).workers.length = p.workers.length := by
  induction schedule generalizing p with
  | nil => rfl
  | cons k schedule ih => exact ih.trans (step_act cases s p k).length_workers

theorem length_workers_start (cases : List SuiteCase) (jobs : Nat) :
    (start cases jobs).workers.length = size jobs cases.length :=
  List.length_replicate

theorem one_le_size (jobs cases : Nat) : 1 ≤ size jobs cases :=
  Nat.le_max_left _ _

end Pool

/-! ### Suites -/

theorem Expectation.judge_ne_workerStopped (x : Expectation) (r : RunResult) :
    x.judge r ≠ .error .workerStopped := by
  unfold judge
  cases r.outcome with
  | faulted fault =>
    dsimp only
    by_cases hkind : x.fault = some fault.kind
    · rw [if_pos hkind]
      cases x.streamMismatch r.transcript with
      | _ => nofun
    · rw [if_neg hkind]
      cases fault with
      | _ => nofun
  | exited status =>
    cases x.fault with
    | some kind => nofun
    | none =>
      cases x.streamMismatch r.transcript with
      | some difference => nofun
      | none =>
        dsimp only
        by_cases hstatus : status = x.status
        · rw [if_pos hstatus]
          nofun
        · rw [if_neg hstatus]
          nofun

/-- Running a case does not stop its worker. -/
theorem SuiteCase.eq_broken_of_workerStopped {c : SuiteCase} {s : Settings}
    (h : (c.run s).verdict = .error .workerStopped) :
    c = .broken c.name .workerStopped := by
  cases c with
  | broken name cause =>
    cases h
    rfl
  | ready testCase =>
    have hverdict : (testCase.run s).verdict = .error .workerStopped := h
    unfold TestCase.run at hverdict
    split at hverdict
    · exact absurd hverdict (Expectation.judge_ne_workerStopped _ _)
    · cases hverdict
    · cases hverdict

section Suites

open Pool

variable (cases : List SuiteCase) (s : Settings) (jobs : Nat) (schedule : List Nat)

theorem Pool.accounted_follow :
    Accounted cases s (follow cases s schedule (start cases jobs))
      (casesRun cases s schedule (start cases jobs)) :=
  (accounted_start cases s jobs).follow schedule

theorem Pool.finished_follow
    (hdone : (follow cases s schedule (start cases jobs)).isDone = true) :
    Finished cases s (follow cases s schedule (start cases jobs))
      (casesRun cases s schedule (start cases jobs)) := by
  have hworkers : (follow cases s schedule (start cases jobs)).workers ≠ [] := by
    apply List.ne_nil_of_length_pos
    rw [length_workers_follow, length_workers_start]
    exact one_le_size jobs cases.length
  exact (accounted_follow cases s jobs schedule).finished hdone hworkers

/-- The counter never gets far past the last case. -/
theorem Pool.next_follow_le :
    (follow cases s schedule (start cases jobs)).next ≤
      cases.length + size jobs cases.length := by
  have hnext := (accounted_follow cases s jobs schedule).next_le
  have hstops := Worker.total_stops_le (follow cases s schedule (start cases jobs)).workers
  rw [length_workers_follow, length_workers_start] at hstops
  omega

theorem runSuiteShared_one : runSuiteShared cases s 1 schedule = some (runSuite cases s) := by
  have hsize : size 1 cases.length = 1 := by
    unfold size
    omega
  rw [runSuiteShared, if_pos hsize]

theorem runSuiteShared_eq_some {r : SuiteReport}
    (h : runSuiteShared cases s jobs schedule = some r) : r = runSuite cases s := by
  unfold runSuiteShared at h
  by_cases hsize : size jobs cases.length = 1
  · rw [if_pos hsize] at h
    exact (Option.some.inj h).symm
  rw [if_neg hsize] at h
  dsimp only at h
  by_cases hdone : (follow cases s schedule (start cases jobs)).isDone = true
  · rw [if_pos hdone, (finished_follow cases s jobs schedule hdone).report_eq] at h
    exact (Option.some.inj h).symm
  · rw [if_neg hdone] at h
    cases h

/-- **Sharing a suite out does not show.** Whatever the number of jobs and whatever the order in
which the workers act: when they have all stopped, every slot holds the report of its own case,
each case was run exactly once, and the report is that of a single job. Every schedule can be
continued until all workers have stopped, the counter stays small, and no case is reported as not
run, unless that is the cause it came with. -/
theorem shared_suite :
    ((follow cases s schedule (start cases jobs)).isDone = true →
      Finished cases s (follow cases s schedule (start cases jobs))
        (casesRun cases s schedule (start cases jobs))) ∧
    (∀ r, runSuiteShared cases s jobs schedule = some r →
      r = runSuite cases s ∧ runSuiteShared cases s 1 [] = some r) ∧
    (∃ more, (follow cases s (schedule ++ more) (start cases jobs)).isDone = true) ∧
    (follow cases s schedule (start cases jobs)).next ≤ cases.length + size jobs cases.length ∧
    ∀ c ∈ cases, (c.run s).verdict = .error .workerStopped → c = .broken c.name .workerStopped := by
  refine ⟨finished_follow cases s jobs schedule, ?_, ?_, next_follow_le cases s jobs schedule, ?_⟩
  · intro r hr
    have heq := runSuiteShared_eq_some cases s jobs schedule hr
    rw [heq]
    exact ⟨rfl, runSuiteShared_one cases s []⟩
  · obtain ⟨more, hmore⟩ := exists_isDone cases s (follow cases s schedule (start cases jobs))
    refine ⟨more, ?_⟩
    rw [follow, List.foldl_append]
    exact hmore
  · intro c _ hverdict
    exact SuiteCase.eq_broken_of_workerStopped hverdict

end Suites

/-- A program that exits with status 7: `LDA #7`, `JMP $FFF9`. -/
def exitSeven : Image :=
  Image.raw [0xA9, 7, 0x4C, 0xF9, 0xFF] 0x200 0x200 .nmos

/-- A case that expects an exit status of `exitSeven`. -/
def exitCase (status : Int) : SuiteCase :=
  .ready ⟨"exit", exitSeven, [], [], ⟨[], none, status, none⟩, none, FailurePlan.none⟩

/-- A case that passes, one that cannot be run, and one that fails. -/
def threeCases : List SuiteCase :=
  [exitCase 7, .broken "absent" (.load .emptyPayload), exitCase 0]

/-- Two workers take the first two cases; one runs the second and the third case before the other
comes to the first. -/
def outOfOrder : List Nat :=
  [0, 1, 1, 1, 1, 1, 0, 1, 0, 0, 1]

open Pool in
/-- The report does not show it. -/
theorem shared_suite_outOfOrder :
    casesRun threeCases Settings.default outOfOrder (start threeCases 2) = [1, 2, 0] ∧
    Finished threeCases Settings.default
      (follow threeCases Settings.default outOfOrder (start threeCases 2)) [1, 2, 0] ∧
    ∃ r, runSuiteShared threeCases Settings.default 2 outOfOrder = some r ∧
      r = runSuite threeCases Settings.default ∧ r.passed = 1 ∧ r.exitCode = 1 := by
  have hran : casesRun threeCases Settings.default outOfOrder (start threeCases 2) =
    [1, 2, 0] := rfl
  have hdone : (follow threeCases Settings.default outOfOrder (start threeCases 2)).isDone =
    true := rfl
  obtain ⟨hfinished, hreport, -⟩ := shared_suite threeCases Settings.default 2 outOfOrder
  have hfinished := hfinished hdone
  have hpassed : (runSuite threeCases Settings.default).passed = 1 ∧
    (runSuite threeCases Settings.default).exitCode = 1 := by decide +kernel
  rw [hran] at hfinished
  obtain ⟨r, hr⟩ : ∃ r, runSuiteShared threeCases Settings.default 2 outOfOrder = some r :=
    ⟨_, rfl⟩
  have heq := (hreport r hr).1
  refine ⟨hran, hfinished, r, hr, heq, ?_⟩
  rw [heq]
  exact hpassed

end Bench65
