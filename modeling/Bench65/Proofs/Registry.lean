import Bench65.Program
import Bench65.Proofs.Computation
import Bench65.Proofs.Lookup

/-!
# Which routine is answered where

A registry is built from a list of assignments of addresses to routines (`buildRegistry_eq`): the
host hooks and the library routines among the labels, as far as they are asked for. If no address is
assigned to two routines the registry answers exactly the assignments; otherwise the first
assignment that contradicts an earlier one is reported (`registerAll_cases`). Two assignments
contradict each other if two library routines share an address, or a library routine and a hook
(`consistent_iff`).

A caller may also go on after a call that failed (`attemptAll`). Then the first routine that an
address was given is the one it keeps (`lookup_attemptAll`).
-/

namespace Bench65

namespace Registry

variable {r r' : Registry} {a : UInt16} {routine : Routine} {done : List (UInt16 × Routine)}

/-! ### One assignment -/

theorem lookup_insertEntry {entries : List (UInt16 × Routine)} (h : entries.lookup a = none)
    (b : UInt16) :
    (insertEntry a routine entries).lookup b =
      if b = a then some routine else entries.lookup b := by
  induction entries with
  | nil => rw [insertEntry, lookup_cons_eq]
  | cons entry rest ih =>
    obtain ⟨c, other⟩ := entry
    rw [lookup_cons_eq] at h
    rw [insertEntry]
    -- the address has no entry, so it is put in front of the first larger one or passed on
    by_cases hac : a = c
    · rw [if_pos hac] at h
      cases h
    rw [if_neg hac] at h
    by_cases hlt : a < c
    · rw [if_pos hlt, lookup_cons_eq]
    · rw [if_neg hlt, lookup_cons_eq, lookup_cons_eq, ih h]
      by_cases hb : b = a
      · rw [if_pos hb, if_pos hb, hb, if_neg hac]
      · rw [if_neg hb, if_neg hb]

/-- The registry answers exactly the assignments. -/
def Answers (r : Registry) (assignments : List (UInt16 × Routine)) : Prop :=
  ∀ a routine, r.lookup a = some routine ↔ (a, routine) ∈ assignments

/-- No address is assigned to two routines. -/
def Consistent (assignments : List (UInt16 × Routine)) : Prop :=
  ∀ a first second, (a, first) ∈ assignments → (a, second) ∈ assignments → first = second

/-- An assignment contradicts an earlier one, and it is the first that does. -/
def FirstConflict (assignments : List (UInt16 × Routine)) (e : LoadError) : Prop :=
  ∃ before after a first second, assignments = before ++ (a, second) :: after ∧
    Consistent before ∧ (a, first) ∈ before ∧ first ≠ second ∧ e = .routineConflict a first second

theorem answers_empty : empty.Answers [] := by
  intro a routine
  exact ⟨fun h => (by cases h), fun h => (by cases h)⟩

theorem answers_hooks : ofHooks.Answers Routine.hooks :=
  fun _ _ => lookup_eq_some_iff_mem (by decide)

theorem Answers.consistent (h : r.Answers done) : Consistent done := by
  intro a first second hfirst hsecond
  have heq := ((h a first).mpr hfirst).symm.trans ((h a second).mpr hsecond)
  exact Option.some.inj heq

section Register

variable {first : Routine}

theorem run_register_of_lookup_eq_none (h : r.lookup a = none) :
    (register a routine).run r = .ok () ⟨insertEntry a routine r.entries⟩ := by
  rw [register, EStateM.run_bind, EStateM.run_get]
  dsimp only
  rw [h]
  rfl

theorem run_register_of_lookup_eq_some_self (h : r.lookup a = some routine) :
    (register a routine).run r = .ok () r := by
  rw [register, EStateM.run_bind, EStateM.run_get]
  dsimp only
  rw [h]
  exact congrArg (EStateM.run · r) (if_neg (not_not.mpr rfl))

/-- A routine is refused where another one is answered already, and the entries stay. -/
theorem run_register_of_lookup_eq_some_of_ne (h : r.lookup a = some first) (hne : first ≠ routine) :
    (register a routine).run r = .error (.routineConflict a first routine) r := by
  rw [register, EStateM.run_bind, EStateM.run_get]
  dsimp only
  rw [h]
  exact congrArg (EStateM.run · r) (if_pos hne)

end Register

/-- An assignment is taken over unless it contradicts another one. -/
theorem register_cases (h : r.Answers done) (a : UInt16) (routine : Routine) :
    (∃ r', (register a routine).run r = .ok () r' ∧ r'.Answers (done ++ [(a, routine)])) ∨
      ∃ first, (a, first) ∈ done ∧ first ≠ routine ∧
        (register a routine).run r = .error (.routineConflict a first routine) r := by
  cases hlookup : r.lookup a with
  | none =>
    refine .inl ⟨_, run_register_of_lookup_eq_none hlookup, fun b other => ?_⟩
    rw [List.mem_append, List.mem_singleton, Prod.mk.injEq, ← h b other]
    show (insertEntry a routine r.entries).lookup b = some other ↔ _
    rw [lookup_insertEntry hlookup]
    by_cases hb : b = a
    · subst hb
      rw [if_pos rfl, hlookup]
      simp [eq_comm]
    · rw [if_neg hb]
      simp [hb, lookup]
  | some first =>
    have hmem := (h a first).mp hlookup
    -- an address that is answered takes its own routine again and no other
    by_cases heq : first = routine
    · subst heq
      refine .inl ⟨r, run_register_of_lookup_eq_some_self hlookup, fun b other => ?_⟩
      rw [h b other, List.mem_append, List.mem_singleton]
      constructor
      · exact .inl
      · rintro (hb | hb)
        · exact hb
        · rw [hb]
          exact hmem
    · exact .inr ⟨first, hmem, heq, run_register_of_lookup_eq_some_of_ne hlookup heq⟩

/-- A call that fails found another routine answered there, and left the registry alone. -/
theorem run_register_eq_error_iff {e : LoadError} :
    (register a routine).run r = .error e r' ↔
      (∃ first, r.lookup a = some first ∧ first ≠ routine ∧
        e = .routineConflict a first routine) ∧ r' = r := by
  cases hlookup : r.lookup a with
  | none =>
    rw [run_register_of_lookup_eq_none hlookup]
    exact ⟨fun h => (by cases h), fun ⟨⟨_, h, _⟩, _⟩ => (by cases h)⟩
  | some first =>
    by_cases heq : first = routine
    · subst heq
      rw [run_register_of_lookup_eq_some_self hlookup]
      refine ⟨fun h => (by cases h), ?_⟩
      rintro ⟨⟨_, ⟨⟩, hne, -⟩, -⟩
      exact absurd rfl hne
    · rw [run_register_of_lookup_eq_some_of_ne hlookup heq]
      constructor
      · rintro ⟨⟩
        exact ⟨⟨first, rfl, heq, rfl⟩, rfl⟩
      · rintro ⟨⟨_, ⟨⟩, -, rfl⟩, rfl⟩
        rfl

/-! ### Calls that may fail -/

/-- The registry after a call, whether the call failed or not. -/
def attempt (r : Registry) (call : UInt16 × Routine) : Registry :=
  finalState ((register call.1 call.2).run r)

theorem attempt_of_lookup_eq_none {call : UInt16 × Routine} (h : r.lookup call.1 = none) :
    r.attempt call = ⟨insertEntry call.1 call.2 r.entries⟩ := by
  rw [attempt, run_register_of_lookup_eq_none h, finalState]

/-- Where a routine is answered already, no call changes anything. -/
theorem attempt_of_lookup_eq_some {call : UInt16 × Routine} {first : Routine}
    (h : r.lookup call.1 = some first) : r.attempt call = r := by
  by_cases heq : first = call.2
  · rw [attempt, run_register_of_lookup_eq_some_self (h.trans (congrArg some heq)), finalState]
  · rw [attempt, run_register_of_lookup_eq_some_of_ne h heq, finalState]

theorem lookup_attempt (r : Registry) (call : UInt16 × Routine) (a : UInt16) :
    (r.attempt call).lookup a = (r.lookup a).or (if a = call.1 then some call.2 else none) := by
  cases hlookup : r.lookup call.1 with
  | none =>
    rw [attempt_of_lookup_eq_none hlookup]
    show (insertEntry call.1 call.2 r.entries).lookup a = _
    rw [lookup_insertEntry hlookup]
    by_cases ha : a = call.1
    · rw [if_pos ha, if_pos ha, ha, hlookup, Option.none_or]
    · rw [if_neg ha, if_neg ha, Option.or_none, lookup]
  | some first =>
    rw [attempt_of_lookup_eq_some hlookup]
    by_cases ha : a = call.1
    · rw [ha, hlookup, Option.some_or]
    · rw [if_neg ha, Option.or_none]

/-- A call changes something exactly where no routine is answered yet. -/
theorem attempt_eq_self_iff {call : UInt16 × Routine} :
    r.attempt call = r ↔ ∃ first, r.lookup call.1 = some first := by
  refine ⟨fun h => ?_, fun ⟨_, hlookup⟩ => attempt_of_lookup_eq_some hlookup⟩
  cases hlookup : r.lookup call.1 with
  | some first => exact ⟨first, rfl⟩
  | none =>
    have hfound := lookup_attempt r call call.1
    rw [h, hlookup, if_pos rfl] at hfound
    cases hfound

/-- The registry after some calls, each of which may have failed. -/
def attemptAll (r : Registry) (calls : List (UInt16 × Routine)) : Registry :=
  calls.foldl attempt r

theorem attemptAll_append (r : Registry) (calls more : List (UInt16 × Routine)) :
    r.attemptAll (calls ++ more) = (r.attemptAll calls).attemptAll more :=
  List.foldl_append

/-- An address keeps the routine it has; one that has none gets the first it is given. -/
theorem lookup_attemptAll (r : Registry) (calls : List (UInt16 × Routine)) (a : UInt16) :
    (r.attemptAll calls).lookup a = (r.lookup a).or (calls.lookup a) := by
  induction calls generalizing r with
  | nil => exact Option.or_none.symm
  | cons call calls ih =>
    show ((r.attempt call).attemptAll calls).lookup a = _
    rw [ih, lookup_attempt, Option.or_assoc, lookup_cons_eq]
    congr 1
    by_cases ha : a = call.1
    · rw [if_pos ha, if_pos ha, Option.some_or]
    · rw [if_neg ha, if_neg ha, Option.none_or]

/-! ### All assignments -/

/-- Makes the assignments one after the other. -/
def registerAll : List (UInt16 × Routine) → EStateM LoadError Registry Unit
  | [] => pure ()
  | (a, routine) :: rest => do
    register a routine
    registerAll rest

theorem registerAll_append (xs ys : List (UInt16 × Routine)) :
    registerAll (xs ++ ys) = (do registerAll xs; registerAll ys) := by
  induction xs with
  | nil => rfl
  | cons x xs ih => rw [List.cons_append, registerAll, registerAll, ih, bind_assoc]

theorem registerAll_cases (h : r.Answers done) (assignments : List (UInt16 × Routine)) :
    (∃ r', (registerAll assignments).run r = .ok () r' ∧ r'.Answers (done ++ assignments)) ∨
      ∃ e r', (registerAll assignments).run r = .error e r' ∧
        FirstConflict (done ++ assignments) e := by
  -- by induction on what is left to register, with what has been registered generalized
  induction assignments generalizing r done with
  | nil =>
    rw [List.append_nil]
    exact .inl ⟨r, rfl, h⟩
  | cons assignment rest ih =>
    obtain ⟨a, routine⟩ := assignment
    rw [registerAll]
    rcases register_cases h a routine with ⟨r', hr', hanswers⟩ | ⟨first, hmem, hne, herror⟩
    · rw [run_bind_of_ok hr']
      have hrest := ih hanswers
      rw [List.append_assoc] at hrest
      exact hrest
    · rw [run_bind_of_error herror]
      exact .inr ⟨_, r, rfl, done, rest, a, first, routine, rfl, h.consistent, hmem, hne, rfl⟩

/-! ### Conflicts -/

variable {assignments : List (UInt16 × Routine)} {e e' : LoadError}

theorem FirstConflict.not_consistent (h : FirstConflict assignments e) :
    ¬ Consistent assignments := by
  obtain ⟨before, after, a, first, second, rfl, -, hmem, hne, -⟩ := h
  intro hconsistent
  exact hne (hconsistent a first second (List.mem_append_left _ hmem) (by simp))

theorem FirstConflict.unique (h : FirstConflict assignments e) (h' : FirstConflict assignments e') :
    e = e' := by
  obtain ⟨before, after, a, first, second, rfl, hbefore, hmem, hne, rfl⟩ := h
  obtain ⟨before', after', a', first', second', heq, hbefore', hmem', hne', rfl⟩ := h'
  -- of two conflicts in different places the earlier one lies in what must be consistent
  rcases List.append_eq_append_iff.mp heq with ⟨l, rfl, hl⟩ | ⟨l, rfl, hl⟩
  · cases l with
    | nil =>
      cases hl
      rw [List.append_nil] at hmem'
      rw [hbefore a first first' hmem hmem']
    | cons x l =>
      cases hl
      exact absurd (hbefore' a first second (List.mem_append_left _ hmem) (by simp)) hne
  · cases l with
    | nil =>
      cases hl
      rw [List.append_nil] at hmem
      rw [hbefore' a first first' hmem hmem']
    | cons x l =>
      cases hl
      exact absurd (hbefore a' first' second' (List.mem_append_left _ hmem') (by simp)) hne'

theorem run_registerAll_empty_ok_iff :
    (∃ r, (registerAll assignments).run empty = .ok () r) ↔ Consistent assignments := by
  rcases registerAll_cases answers_empty assignments with
    ⟨r, hr, hanswers⟩ | ⟨e, r, he, hconflict⟩
  · exact iff_of_true ⟨r, hr⟩ hanswers.consistent
  · rw [he]
    exact iff_of_false (fun ⟨_, h⟩ => (by cases h)) hconflict.not_consistent

theorem run_registerAll_empty_error_iff :
    (∃ r, (registerAll assignments).run empty = .error e r) ↔ FirstConflict assignments e := by
  rcases registerAll_cases answers_empty assignments with
    ⟨r, hr, hanswers⟩ | ⟨e', r, he, hconflict⟩
  · rw [hr]
    exact iff_of_false (fun ⟨_, h⟩ => (by cases h)) fun h => h.not_consistent hanswers.consistent
  · rw [he]
    constructor
    · rintro ⟨_, ⟨⟩⟩
      exact hconflict
    · intro h
      rw [h.unique hconflict]
      exact ⟨r, rfl⟩

/-- A registry built from nothing answers the assignments it was built from. -/
theorem answers_of_registerAll (h : (registerAll assignments).run empty = .ok () r) :
    r.Answers assignments := by
  rcases registerAll_cases answers_empty assignments with ⟨r', hr', hanswers⟩ | ⟨e, r', he, -⟩
  · rw [hr'] at h
    cases h
    exact hanswers
  · rw [he] at h
    cases h

end Registry

/-! ### Labels of library routines -/

namespace Routine

/-- The labels of library routines are the names of these with an underscore. -/
theorem eq_of_ofSymbol?_eq_some {name : String} {routine : Routine}
    (h : ofSymbol? name = some routine) :
    name = "_" ++ routine.name ∧ ∀ a, (a, routine) ∉ hooks := by
  unfold ofSymbol? at h
  split at h <;> cases h <;> simp [Routine.name, hooks]

theorem hooks_unique {a : UInt16} {hook hook' : Routine} (h : (a, hook) ∈ hooks)
    (h' : (a, hook') ∈ hooks) : hook = hook' :=
  Registry.answers_hooks.consistent a hook hook' h h'

end Routine

namespace Program

/-! ### The registry of a program -/

/-- The assignments of the library routines among some labels. -/
def libraryAssignments (labels : List (String × UInt16)) : List (UInt16 × Routine) :=
  labels.filterMap fun label => (Routine.ofSymbol? label.1).map (label.2, ·)

/-- The assignments that the settings ask for. -/
def assignments (symbols : Symbols) (settings : Settings) : List (UInt16 × Routine) :=
  (if settings.hooks then Routine.hooks else []) ++
    if settings.library then libraryAssignments symbols.entries else []

/-- A label names a library routine. -/
def Labels (symbols : Symbols) (name : String) (a : UInt16) (routine : Routine) : Prop :=
  Routine.ofSymbol? name = some routine ∧ (name, a) ∈ symbols.entries

/-- Two routines that the settings ask for want the same address. -/
inductive Clash (symbols : Symbols) (settings : Settings) : Prop
  /-- Two library routines have labels there. -/
  | labels {a : UInt16} {name other : String} {routine routine' : Routine}
      (hlibrary : settings.library = true) (hne : name ≠ other)
      (h : Labels symbols name a routine) (h' : Labels symbols other a routine')
  /-- A library routine has its label where a host hook is. -/
  | hook {a : UInt16} {name : String} {routine hook : Routine}
      (hlibrary : settings.library = true) (hhooks : settings.hooks = true)
      (h : Labels symbols name a routine) (hhook : (a, hook) ∈ Routine.hooks)

theorem mem_libraryAssignments {symbols : Symbols} {a : UInt16} {routine : Routine} :
    (a, routine) ∈ libraryAssignments symbols.entries ↔ ∃ name, Labels symbols name a routine := by
  simp only [libraryAssignments, Labels, List.mem_filterMap, Option.map_eq_some_iff, Prod.exists,
    Prod.mk.injEq]
  constructor
  · rintro ⟨name, b, hmem, routine', hroutine, rfl, rfl⟩
    exact ⟨name, hroutine, hmem⟩
  · rintro ⟨name, hroutine, hmem⟩
    exact ⟨name, a, hmem, routine, hroutine, rfl, rfl⟩

theorem mem_assignments {symbols : Symbols} {settings : Settings} {a : UInt16}
    {routine : Routine} :
    (a, routine) ∈ assignments symbols settings ↔
      settings.hooks = true ∧ (a, routine) ∈ Routine.hooks ∨
        settings.library = true ∧ ∃ name, Labels symbols name a routine := by
  rw [assignments, List.mem_append, ← mem_libraryAssignments]
  cases settings.hooks <;> cases settings.library <;> simp

theorem Labels.eq_iff {symbols : Symbols} {a b : UInt16} {name other : String}
    {routine routine' : Routine} (h : Labels symbols name a routine)
    (h' : Labels symbols other b routine') : routine = routine' ↔ name = other := by
  constructor
  · rintro rfl
    rw [(Routine.eq_of_ofSymbol?_eq_some h.1).1, (Routine.eq_of_ofSymbol?_eq_some h'.1).1]
  · rintro rfl
    exact Option.some.inj (h.1.symm.trans h'.1)

theorem Labels.ne_hook {symbols : Symbols} {a b : UInt16} {name : String}
    {routine hook : Routine} (h : Labels symbols name a routine)
    (hhook : (b, hook) ∈ Routine.hooks) : routine ≠ hook := by
  rintro rfl
  exact (Routine.eq_of_ofSymbol?_eq_some h.1).2 b hhook

/-- The assignments agree with each other unless two routines clash. -/
theorem consistent_iff {symbols : Symbols} {settings : Settings} :
    Registry.Consistent (assignments symbols settings) ↔ ¬ Clash symbols settings := by
  constructor
  · intro hconsistent hclash
    cases hclash with
    | labels hlibrary hne h h' =>
      have heq := hconsistent _ _ _ (mem_assignments.mpr (.inr ⟨hlibrary, _, h⟩))
        (mem_assignments.mpr (.inr ⟨hlibrary, _, h'⟩))
      exact hne ((h.eq_iff h').mp heq)
    | hook hlibrary hhooks h hhook =>
      have heq := hconsistent _ _ _ (mem_assignments.mpr (.inr ⟨hlibrary, _, h⟩))
        (mem_assignments.mpr (.inl ⟨hhooks, hhook⟩))
      exact h.ne_hook hhook heq
  · intro hno a first second hfirst hsecond
    rcases mem_assignments.mp hfirst with ⟨hhooks, hhook⟩ | ⟨hlibrary, name, h⟩
    -- two assignments to one address: both of hooks, one of each kind, or both of labels
    · rcases mem_assignments.mp hsecond with ⟨-, hhook'⟩ | ⟨hlibrary, other, h'⟩
      · exact Routine.hooks_unique hhook hhook'
      · exact absurd (.hook hlibrary hhooks h' hhook) hno
    · rcases mem_assignments.mp hsecond with ⟨hhooks, hhook⟩ | ⟨-, other, h'⟩
      · exact absurd (.hook hlibrary hhooks h hhook) hno
      · by_contra hne
        exact hno (.labels hlibrary (fun heq => hne ((h.eq_iff h').mpr heq)) h h')

theorem registerSymbols_eq (labels : List (String × UInt16)) :
    registerSymbols labels = Registry.registerAll (libraryAssignments labels) := by
  induction labels with
  | nil => rfl
  | cons label rest ih =>
    obtain ⟨name, a⟩ := label
    rw [registerSymbols, libraryAssignments, List.filterMap_cons]
    cases Routine.ofSymbol? name with
    | none => exact ih
    | some routine =>
      show (do Registry.register a routine; registerSymbols rest) =
        Registry.registerAll ((a, routine) :: libraryAssignments rest)
      rw [Registry.registerAll, ih]

theorem buildRegistry_eq (symbols : Symbols) (settings : Settings) :
    buildRegistry symbols settings =
      (outcome (Registry.registerAll (assignments symbols settings)) Registry.empty).map (·.2) := by
  have hhooks : (Registry.registerAll (if settings.hooks then Routine.hooks else [])).run
      Registry.empty = .ok () (if settings.hooks then Registry.ofHooks else Registry.empty) := by
    cases settings.hooks with
    | true => rfl
    | false => rfl
  have hlibrary : (if settings.library then registerSymbols symbols.entries else pure ()) =
      Registry.registerAll
        (if settings.library then libraryAssignments symbols.entries else []) := by
    cases settings.library with
    | true => exact registerSymbols_eq _
    | false => rfl
  rw [buildRegistry, assignments, Registry.registerAll_append, outcome, outcome,
    run_bind_of_ok hhooks, ← hlibrary]

theorem buildRegistry_eq_ok_iff {symbols : Symbols} {settings : Settings} {r : Registry} :
    buildRegistry symbols settings = .ok r ↔
      (Registry.registerAll (assignments symbols settings)).run Registry.empty = .ok () r := by
  rw [buildRegistry_eq, outcome]
  cases (Registry.registerAll (assignments symbols settings)).run Registry.empty with
  | ok _ r' =>
    constructor
    · rintro ⟨⟩
      rfl
    · rintro ⟨⟩
      rfl
  | error e r' => exact ⟨fun h => (by cases h), fun h => (by cases h)⟩

theorem buildRegistry_eq_error_iff {symbols : Symbols} {settings : Settings} {e : LoadError} :
    buildRegistry symbols settings = .error e ↔
      Registry.FirstConflict (assignments symbols settings) e := by
  rw [← Registry.run_registerAll_empty_error_iff, buildRegistry_eq, outcome]
  cases (Registry.registerAll (assignments symbols settings)).run Registry.empty with
  | ok _ r' => exact ⟨fun h => (by cases h), fun ⟨_, h⟩ => (by cases h)⟩
  | error e' r' =>
    constructor
    · rintro ⟨⟩
      exact ⟨r', rfl⟩
    · rintro ⟨_, ⟨⟩⟩
      rfl

/-- The labels that name library routines. -/
def libraryLabels (symbols : Symbols) : Symbols :=
  ⟨symbols.entries.filter fun label => (Routine.ofSymbol? label.1).isSome⟩

theorem libraryAssignments_libraryLabels (symbols : Symbols) :
    libraryAssignments (libraryLabels symbols).entries = libraryAssignments symbols.entries := by
  rw [libraryAssignments, libraryAssignments, libraryLabels, List.filterMap_filter]
  congr 1
  funext label
  cases Routine.ofSymbol? label.1 <;> rfl

/-- All other labels do not matter. -/
theorem buildRegistry_libraryLabels (symbols : Symbols) (settings : Settings) :
    buildRegistry (libraryLabels symbols) settings = buildRegistry symbols settings := by
  rw [buildRegistry_eq, buildRegistry_eq, assignments, assignments,
    libraryAssignments_libraryLabels]

section Building

variable {symbols : Symbols} {settings : Settings} {r : Registry}

theorem buildRegistry_ok_iff :
    (∃ r, buildRegistry symbols settings = .ok r) ↔ ¬ Clash symbols settings := by
  simp only [buildRegistry_eq_ok_iff]
  exact Registry.run_registerAll_empty_ok_iff.trans consistent_iff

/-- Building a registry fails in no other way than by a conflict. -/
theorem buildRegistry_error_iff :
    (∃ a first second, buildRegistry symbols settings = .error (.routineConflict a first second)) ↔
      Clash symbols settings := by
  constructor
  · rintro ⟨a, first, second, herror⟩
    by_contra hno
    obtain ⟨r, hr⟩ := buildRegistry_ok_iff.mpr hno
    rw [herror] at hr
    cases hr
  · intro hclash
    cases hbuild : buildRegistry symbols settings with
    | ok r => exact absurd hclash (buildRegistry_ok_iff.mp ⟨r, hbuild⟩)
    | error e =>
      obtain ⟨_, _, a, first, second, -, -, -, -, rfl⟩ := buildRegistry_eq_error_iff.mp hbuild
      exact ⟨a, first, second, rfl⟩

/-- A registry answers the hooks and the labelled routines, as far as they are asked for. -/
theorem lookup_of_buildRegistry (h : buildRegistry symbols settings = .ok r) {a : UInt16}
    {routine : Routine} :
    r.lookup a = some routine ↔
      settings.hooks = true ∧ (a, routine) ∈ Routine.hooks ∨
        settings.library = true ∧ ∃ name, Labels symbols name a routine := by
  rw [Registry.answers_of_registerAll (buildRegistry_eq_ok_iff.mp h) a routine, mem_assignments]

end Building

end Program

end Bench65
