import Bench65.LoadError

/-!
# Checks in order

A `Check` is a condition and the errors that report that it does not hold. `Check.Decides` ties a
computation to a list of them: it succeeds if and only if all checks hold, and otherwise fails with
the report of the first one that does not. Checks are put together as the computations that make
them are (`Check.Decides.ite`, `Check.Decides.bind`).
-/

namespace Bench65

/-- A check, and the errors that report that it does not hold. -/
structure Check where
  holds : Prop
  reports : LoadError → Prop

namespace Check

/-- A check reported by one error. -/
def of (p : Prop) (e : LoadError) : Check :=
  ⟨p, (· = e)⟩

/-- An error reports the first check that does not hold. -/
def FirstFailing (e : LoadError) : List Check → Prop
  | [] => False
  | c :: rest => ¬ c.holds ∧ c.reports e ∨ c.holds ∧ FirstFailing e rest

/-- A computation succeeds if and only if all checks hold, and otherwise fails with a report of the
first one that does not. -/
structure Decides {α : Type} (checks : List Check) (x : Except LoadError α) : Prop where
  ok_iff : (∃ a, x = .ok a) ↔ ∀ c ∈ checks, c.holds
  error_iff : ∀ e, x = .error e ↔ FirstFailing e checks

variable {α β : Type} {cs ds : List Check} {e : LoadError}

theorem firstFailing_append :
    FirstFailing e (cs ++ ds) ↔
      FirstFailing e cs ∨ (∀ c ∈ cs, c.holds) ∧ FirstFailing e ds := by
  induction cs with
  | nil => simp [FirstFailing]
  | cons c cs ih =>
    rw [List.cons_append, FirstFailing, FirstFailing, ih, List.forall_mem_cons, and_or_left,
      or_assoc, and_assoc]

theorem FirstFailing.not_all (h : FirstFailing e cs) : ¬ ∀ c ∈ cs, c.holds := by
  induction cs with
  | nil => cases h
  | cons c cs ih =>
    rw [List.forall_mem_cons]
    rcases h with ⟨hc, -⟩ | ⟨-, h⟩
    · exact fun hall => hc hall.1
    · exact fun hall => ih h hall.2

theorem decides_ok (a : α) : Decides [] (.ok a) where
  ok_iff := ⟨fun _ _ hc => absurd hc List.not_mem_nil, fun _ => ⟨a, rfl⟩⟩
  error_iff := fun _ => ⟨fun h => (by cases h), False.elim⟩

theorem Decides.failing {c : Check} (hc : ¬ c.holds) (hr : ∀ e', c.reports e' ↔ e' = e) :
    Decides (c :: cs) (.error e : Except LoadError α) := by
  refine ⟨?_, fun e' => ?_⟩
  · rw [List.forall_mem_cons]
    exact iff_of_false (fun ⟨_, h⟩ => (by cases h)) fun h => hc h.1
  · rw [FirstFailing, hr]
    constructor
    · rintro ⟨⟩
      exact .inl ⟨hc, rfl⟩
    · rintro (⟨-, rfl⟩ | ⟨h, -⟩)
      · rfl
      · exact absurd h hc

theorem Decides.passing {c : Check} {x : Except LoadError α} (hc : c.holds) (hx : Decides cs x) :
    Decides (c :: cs) x := by
  refine ⟨?_, fun e' => ?_⟩
  · rw [List.forall_mem_cons, hx.ok_iff]
    exact ⟨fun h => ⟨hc, h⟩, And.right⟩
  · rw [hx.error_iff, FirstFailing]
    constructor
    · exact fun h => .inr ⟨hc, h⟩
    · rintro (⟨h, -⟩ | ⟨-, h⟩)
      · exact absurd hc h
      · exact h

/-- A check made first. -/
theorem Decides.ite {p q : Prop} [Decidable p] {x y : Except LoadError α} (hq : q ↔ ¬ p)
    (hy : y = .error e) (hx : Decides cs x) : Decides (of q e :: cs) (if p then y else x) := by
  by_cases hp : p
  · rw [if_pos hp, hy]
    exact .failing (fun h => hq.mp h hp) fun _ => Iff.rfl
  · rw [if_neg hp]
    exact .passing (hq.mpr hp) hx

/-- Checks made one after the other. -/
theorem Decides.bind {x : Except LoadError α} {f : α → Except LoadError β} (hx : Decides cs x)
    (hf : ∀ a, x = .ok a → Decides ds (f a)) : Decides (cs ++ ds) (x >>= f) := by
  cases x with
  | error e =>
    have hfails := (hx.error_iff e).mp rfl
    refine ⟨?_, fun e' => ?_⟩
    · refine iff_of_false (fun ⟨_, h⟩ => (by cases h)) fun hall => hfails.not_all fun c hc => ?_
      exact hall c (List.mem_append_left _ hc)
    · have herror := hx.error_iff e'
      rw [firstFailing_append, ← herror]
      constructor
      · rintro ⟨⟩
        exact .inl rfl
      · rintro (⟨⟨⟩⟩ | ⟨hall, -⟩)
        · rfl
        · exact absurd hall hfails.not_all
  | ok a =>
    have hall := hx.ok_iff.mp ⟨a, rfl⟩
    have ha := hf a rfl
    refine ⟨?_, fun e' => ?_⟩
    · rw [List.forall_mem_append]
      exact ha.ok_iff.trans ⟨fun h => ⟨hall, h⟩, And.right⟩
    · rw [firstFailing_append]
      refine (ha.error_iff e').trans ⟨fun h => .inr ⟨hall, h⟩, ?_⟩
      rintro (h | ⟨-, h⟩)
      · exact absurd hall h.not_all
      · exact h

end Check

end Bench65
