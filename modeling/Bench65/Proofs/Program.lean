import Bench65.Program
import Bench65.Proofs.ArgumentBlock
import Bench65.Proofs.Computation

/-!
# What a loaded program is

`checkPlacement_eq_ok_iff` turns the first checks of a load into the bounds they stand for, and
`load_eq_ok` says what passed and what was built when a load succeeds. The argument block lies
above the code and so above the zero page: the C stack pointer, which is written after the block,
leaves it alone (`inMemory_load`).
-/

namespace Bench65

theorem exists_of_bind_eq_ok {ε α β : Type} {x : Except ε α} {f : α → Except ε β} {b : β}
    (h : (x >>= f) = .ok b) : ∃ a, x = .ok a ∧ f a = .ok b := by
  cases x with
  | error e => cases h
  | ok a => exact ⟨a, rfl, h⟩

/-- A check that fails ends the computation, one that passes leaves the rest to decide. -/
theorem ite_throw_bind_eq_ok_iff {ε α β : Type} {p : Prop} [Decidable p] {e : ε}
    {f : α → Except ε β} {x : Except ε β} {b : β} :
    (if p then (throw e : Except ε α) >>= f else x) = .ok b ↔ ¬ p ∧ x = .ok b := by
  by_cases hp : p
  · rw [if_pos hp]
    exact ⟨fun h => (by cases h), fun h => absurd hp h.1⟩
  · rw [if_neg hp]
    exact ⟨fun h => ⟨hp, h⟩, fun h => h.2⟩

theorem ite_throw_eq_ok_iff {ε α : Type} {p : Prop} [Decidable p] {e : ε} {x : Except ε α} {a : α} :
    (if p then throw e else x) = .ok a ↔ ¬ p ∧ x = .ok a := by
  by_cases hp : p
  · rw [if_pos hp]
    exact ⟨fun h => (by cases h), fun h => absurd hp h.1⟩
  · rw [if_neg hp]
    exact ⟨fun h => ⟨hp, h⟩, fun h => h.2⟩

namespace Program

/-- An image with code that goes between the stack page and the top of the arguments, an entry in
that code, and a C stack pointer in the zero page. -/
structure Placeable (image : Image) (argumentTop : UInt16) : Prop where
  payload_ne_nil : image.payload ≠ []
  pointerCell_ne : image.header.pointerCell ≠ 0xFF
  floor_le_load : Layout.programFloor ≤ image.header.load
  stop_le_top : image.stop ≤ argumentTop.toNat
  load_le_entry : image.header.load ≤ image.header.entry
  entry_lt_stop : image.header.entry.toNat < image.stop

theorem checkPlacement_eq_ok_iff (image : Image) (argumentTop : UInt16) :
    checkPlacement image argumentTop = .ok () ↔ Placeable image argumentTop := by
  simp only [checkPlacement, ite_throw_bind_eq_ok_iff, ite_throw_eq_ok_iff, not_or,
    UInt16.not_lt, Nat.not_lt, Nat.not_le, List.isEmpty_iff]
  constructor
  · rintro ⟨h₁, h₂, ⟨h₃, h₄⟩, ⟨h₅, h₆⟩, -⟩
    exact ⟨h₁, h₂, h₃, h₄, h₅, h₆⟩
  · rintro ⟨h₁, h₂, h₃, h₄, h₅, h₆⟩
    exact ⟨h₁, h₂, ⟨h₃, h₄⟩, ⟨h₅, h₆⟩, rfl⟩

/-! ### What is stored -/

section Outcome

variable {σ α : Type} {x : EStateM LoadError σ α} {s s' : σ}

theorem outcome_eq_ok_iff {a : α} : outcome x s = .ok (a, s') ↔ x.run s = .ok a s' := by
  unfold outcome
  cases x.run s with
  | ok b s₁ =>
    constructor
    · rintro ⟨⟩
      rfl
    · rintro ⟨⟩
      rfl
  | error e s₁ => exact ⟨fun h => (by cases h), fun h => (by cases h)⟩

theorem outcome_eq_error_iff {e : LoadError} :
    outcome x s = .error e ↔ ∃ s', x.run s = .error e s' := by
  unfold outcome
  cases x.run s with
  | ok b s₁ => exact ⟨fun h => (by cases h), fun ⟨_, h⟩ => (by cases h)⟩
  | error e' s₁ =>
    constructor
    · rintro ⟨⟩
      exact ⟨s₁, rfl⟩
    · rintro ⟨_, ⟨⟩⟩
      rfl

end Outcome

/-- The memory with the code and the reset vector. -/
def codeMemory (image : Image) (fill : UInt8) : Memory :=
  ((Memory.filled fill).writeBytes image.header.load image.payload).writeWord resetVector
    image.header.entry

/-- Code that may be placed fits into the address space, so that only the argument block can be
refused. -/
theorem Placeable.outcome_place {image : Image} {argumentTop : UInt16}
    (h : Placeable image argumentTop) (args : List (List UInt8)) (fill : UInt8) :
    outcome (place image args argumentTop) (Memory.filled fill) =
      outcome (ArgumentBlock.serialize args argumentTop image.stop) (codeMemory image fill) := by
  have hfits : image.header.load.toNat + image.payload.length ≤ 0x10000 := by
    have hle := h.stop_le_top
    have htop := argumentTop.toNat_lt
    rw [Image.stop] at hle
    omega
  rw [outcome, place, run_bind_of_ok (Memory.run_load_of_fits _ hfits)]
  rfl

/-- The processor of a loaded program. -/
def initialCpu (image : Image) (settings : Settings) : Cpu :=
  Cpu.start (settings.variant.getD image.header.variant)
    (Registers.initial image.header.entry settings.stackTop) settings.stepBudget settings.tracing

/-- What a load passed and what it built, when it succeeds. -/
theorem load_eq_ok {image : Image} {args : List (List UInt8)} {settings : Settings}
    {program : Program} (h : load image args settings = .ok program) :
    ∃ block written,
      Placeable image settings.argumentTop ∧
      (ArgumentBlock.serialize args settings.argumentTop image.stop).run
        (codeMemory image settings.fill) = .ok block written ∧
      buildRegistry image.symbols settings = .ok program.registry ∧
      program.cpu = initialCpu image settings ∧
      program.memory = program.stack.setPointer written block.start ∧
      program.layout =
        ⟨image.header.load, image.stop, block.start, settings.argumentTop⟩ ∧
      program.arguments = block ∧
      program.stack = ⟨image.header.pointerCell⟩ := by
  rw [load] at h
  obtain ⟨u, hplace, h⟩ := exists_of_bind_eq_ok h
  obtain ⟨⟨block, written⟩, hblock, h⟩ := exists_of_bind_eq_ok h
  obtain ⟨registry, hregistry, h⟩ := exists_of_bind_eq_ok h
  cases h
  have hplaceable := (checkPlacement_eq_ok_iff _ _).mp hplace
  rw [hplaceable.outcome_place, outcome_eq_ok_iff] at hblock
  exact ⟨block, written, hplaceable, hblock, hregistry, rfl, rfl, rfl, rfl, rfl⟩

/-- Only the processor of a loaded program depends on the settings that say nothing about memory
and routines. -/
theorem load_of_agree {image : Image} {args : List (List UInt8)} {settings settings' : Settings}
    {program : Program} (h : load image args settings = .ok program)
    (htop : settings'.argumentTop = settings.argumentTop)
    (hfill : settings'.fill = settings.fill) (hhooks : settings'.hooks = settings.hooks)
    (hlibrary : settings'.library = settings.library) :
    load image args settings' = .ok { program with cpu := initialCpu image settings' } := by
  rw [load] at h
  obtain ⟨u, hplace, h⟩ := exists_of_bind_eq_ok h
  obtain ⟨⟨block, written⟩, hblock, h⟩ := exists_of_bind_eq_ok h
  obtain ⟨registry, hregistry, h⟩ := exists_of_bind_eq_ok h
  cases h
  have hregistry' : buildRegistry image.symbols settings' = .ok registry := by
    rw [buildRegistry, hhooks, hlibrary]
    exact hregistry
  -- the settings that differ are read by the start of the processor alone
  rw [load, htop, hfill]
  dsimp only
  rw [hplace]
  show (outcome (place image args settings.argumentTop) (Memory.filled settings.fill) >>= _) = _
  rw [hblock]
  show (buildRegistry image.symbols settings' >>= _) = _
  rw [hregistry']
  rfl

/-! ### The argument block -/

/-- Storing the C stack pointer changes the zero page at most. -/
theorem read_setPointer_of_le (s : CStack) (m : Memory) (p : UInt16) {a : UInt16}
    (ha : 0x200 ≤ a.toNat) : (s.setPointer m p).read a = m.read a := by
  have hc : s.pointerCell.toUInt16.toNat < 0x100 := by
    rw [UInt8.toNat_toUInt16]
    exact s.pointerCell.toNat_lt
  have hne₁ : s.pointerCell.toUInt16 ≠ a := by
    rintro rfl
    omega
  have hne₂ : s.pointerCell.toUInt16 + 1 ≠ a := by
    rintro rfl
    rw [UInt16.toNat_add, UInt16.toNat_one] at ha
    omega
  rw [CStack.setPointer, Memory.writeWord, Memory.read_write_of_ne _ _ hne₂,
    Memory.read_write_of_ne _ _ hne₁]

/-- The memory of a loaded program holds the block of its arguments. -/
theorem inMemory_load {image : Image} {args : List (List UInt8)} {settings : Settings}
    {program : Program} (h : load image args settings = .ok program) :
    program.arguments.InMemory program.memory args := by
  obtain ⟨block, written, hplace, hblock, -, -, hmemory, -, harguments, -⟩ := load_eq_ok h
  obtain ⟨hin, hfloor⟩ := ArgumentBlock.inMemory_serialize hblock
  have hload : 0x200 ≤ image.header.load.toNat := UInt16.le_iff_toNat_le.mp hplace.floor_le_load
  rw [harguments, hmemory]
  refine hin.congr fun c hc _ => read_setPointer_of_le _ _ _ ?_
  rw [Image.stop] at hfloor
  omega

end Program

end Bench65
