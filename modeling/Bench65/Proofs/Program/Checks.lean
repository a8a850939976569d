import Bench65.Proofs.Check
import Bench65.Proofs.Program
import Bench65.Proofs.Registry

/-!
# The checks of a load

`Program.checks` lists what a load checks, in order, and how it reports what it finds.
`decides_load` says that these checks decide: the load succeeds if and only if all of them hold, and
otherwise fails with the report of the first one that does not.
-/

namespace Bench65

open Check (Decides)

theorem ArgumentBlock.FirstWithZero.not_forall {args : List (List UInt8)} {i : Nat}
    (h : FirstWithZero args i) : ¬ ∀ arg ∈ args, 0 ∉ arg := by
  obtain ⟨hi, hmem, -⟩ := h
  exact fun hall => hall _ (List.getElem_mem hi) hmem

namespace Program

variable (image : Image) (args : List (List UInt8)) (settings : Settings)

/-- The checks of the image. -/
def placementChecks (argumentTop : UInt16) : List Check :=
  [.of (image.payload ≠ []) .emptyPayload,
   .of (image.header.pointerCell ≠ 0xFF) (.badStackPointer image.header.pointerCell),
   .of (Layout.programFloor ≤ image.header.load ∧ image.stop ≤ argumentTop.toNat)
    (.imageOutOfBounds image.header.load image.payload.length Layout.programFloor
      argumentTop.toNat),
   .of (image.header.load ≤ image.header.entry ∧ image.header.entry.toNat < image.stop)
    (.entryOutOfBounds image.header.entry image.header.load image.stop)]

/-- The checks of the arguments, which must find room in some bytes below `top`. -/
def argumentChecks (top : UInt16) (available : Nat) : List Check :=
  [⟨∀ arg ∈ args, 0 ∉ arg, fun e => ∃ i, ArgumentBlock.FirstWithZero args i ∧ e = .interiorNul i⟩,
   .of (ArgumentBlock.size args ≤ available)
    (.argumentsTooLarge (ArgumentBlock.size args) available top)]

/-- The check of the addresses of the routines. -/
def registryChecks (symbols : Symbols) : List Check :=
  [⟨Registry.Consistent (assignments symbols settings),
    Registry.FirstConflict (assignments symbols settings)⟩]

/-- The checks of a load, in order. -/
def checks : List Check :=
  placementChecks image settings.argumentTop ++
    (argumentChecks args settings.argumentTop (settings.argumentTop.toNat - image.stop) ++
      registryChecks settings image.symbols)

theorem decides_checkPlacement (argumentTop : UInt16) :
    Decides (placementChecks image argumentTop) (checkPlacement image argumentTop) := by
  unfold checkPlacement placementChecks
  refine .ite ?_ rfl (.ite ?_ rfl (.ite ?_ rfl (.ite ?_ rfl (Check.decides_ok ()))))
  · rw [List.isEmpty_iff]
  · exact Iff.rfl
  · rw [not_or, UInt16.not_lt, Nat.not_lt]
  · rw [not_or, UInt16.not_lt, Nat.not_le]

theorem decides_serialize (m : Memory) (top : UInt16) (floor : Nat) :
    Decides (argumentChecks args top (top.toNat - floor))
      (outcome (ArgumentBlock.serialize args top floor) m) := by
  unfold argumentChecks
  refine ⟨?_, fun e => ?_⟩
  · rw [List.forall_mem_cons, List.forall_mem_singleton]
    constructor
    · rintro ⟨⟨b, written⟩, h⟩
      obtain ⟨hzero, hroom, -, -⟩ :=
        (ArgumentBlock.run_serialize_eq_ok_iff ..).mp (outcome_eq_ok_iff.mp h)
      exact ⟨hzero, hroom⟩
    · rintro ⟨hzero, hroom⟩
      exact ⟨⟨_, _⟩, outcome_eq_ok_iff.mpr
        ((ArgumentBlock.run_serialize_eq_ok_iff m args top floor _ _).mpr
          ⟨hzero, hroom, rfl, rfl⟩)⟩
  -- refused for a zero byte first, and for the room only without one
  · simp only [outcome_eq_error_iff, ArgumentBlock.run_serialize_eq_error_iff,
      exists_and_left, exists_eq, and_true]
    constructor
    · rintro (⟨i, hi, he⟩ | ⟨hzero, hroom, he⟩)
      · exact .inl ⟨hi.not_forall, i, hi, he⟩
      · exact .inr ⟨hzero, .inl ⟨Nat.not_le.mpr hroom, he⟩⟩
    · rintro (⟨-, hi⟩ | ⟨hzero, ⟨hroom, he⟩ | ⟨-, ⟨⟩⟩⟩)
      · exact .inl hi
      · exact .inr ⟨hzero, Nat.lt_of_not_le hroom, he⟩

theorem decides_buildRegistry (symbols : Symbols) :
    Decides (registryChecks settings symbols) (buildRegistry symbols settings) := by
  unfold registryChecks
  refine ⟨?_, fun e => ?_⟩
  · rw [List.forall_mem_singleton]
    simp only [buildRegistry_eq_ok_iff]
    exact Registry.run_registerAll_empty_ok_iff
  · rw [buildRegistry_eq_error_iff]
    constructor
    · exact fun h => .inl ⟨h.not_consistent, h⟩
    · rintro (⟨-, h⟩ | ⟨-, ⟨⟩⟩)
      exact h

/-- The checks decide. -/
theorem decides_load : Decides (checks image args settings) (load image args settings) := by
  unfold load
  refine (decides_checkPlacement image settings.argumentTop).bind fun _ hplace => ?_
  rw [((checkPlacement_eq_ok_iff _ _).mp hplace).outcome_place]
  refine (decides_serialize args _ settings.argumentTop image.stop).bind fun block _ => ?_
  rw [← List.append_nil (registryChecks settings image.symbols)]
  exact (decides_buildRegistry settings image.symbols).bind fun _ _ => Check.decides_ok _

end Program

end Bench65
