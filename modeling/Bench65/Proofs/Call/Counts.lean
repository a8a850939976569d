import Bench65.Call.Variadic
import Bench65.Proofs.Memory
import Bench65.Proofs.Printf.Rendering
import Mathlib.Algebra.GroupWithZero.Nat

/-!
# The counts that a format stores

`%n` is the only conversion that changes memory. What a rendering has done to memory is therefore a
list of stores (`countStores`), one for every `%n` among its pieces and in their order
(`renderPieces_ok`), and nothing else has changed (`read_foldl_apply`).

A format that cannot be rendered has a first directive that cannot (`exists_failing_directive`).
The pieces before it have been rendered, and it has not stored anything itself
(`memory_render_error`).
-/

namespace Bench65.Call

open Printf

/-! ### Renderings that leave memory alone -/

section LeavesMemory

variable {ε α β : Type}

/-- The computation never changes memory, even if it fails. -/
def LeavesMemory (x : EStateM ε FormatState α) : Prop :=
  ∀ s, (finalState (x.run s)).memory = s.memory

theorem leavesMemory_pure (a : α) : LeavesMemory (pure a : EStateM ε FormatState α) :=
  fun _ => rfl

theorem leavesMemory_throw (e : ε) : LeavesMemory (throw e : EStateM ε FormatState α) :=
  fun _ => rfl

variable {x : EStateM ε FormatState α}

theorem LeavesMemory.of_ok (h : LeavesMemory x) {s s' : FormatState} {a : α}
    (hrun : x.run s = .ok a s') : s'.memory = s.memory := by
  have hs := h s
  rw [hrun] at hs
  exact hs

theorem LeavesMemory.of_error (h : LeavesMemory x) {s s' : FormatState} {e : ε}
    (hrun : x.run s = .error e s') : s'.memory = s.memory := by
  have hs := h s
  rw [hrun] at hs
  exact hs

theorem LeavesMemory.bind {f : α → EStateM ε FormatState β} (hx : LeavesMemory x)
    (hf : ∀ a, LeavesMemory (f a)) : LeavesMemory (x >>= f) := by
  intro s
  rw [EStateM.run_bind]
  cases h : x.run s with
  | ok a s' => exact (hf a s').trans (hx.of_ok h)
  | error e s' => exact hx.of_error h

end LeavesMemory

theorem leavesMemory_confined (least : Nat) (text : Unit → List UInt8) :
    LeavesMemory (confined least text : Rendering Violation.Reason FormatState (List UInt8)) := by
  rw [confined_eq_ite]
  split
  · exact leavesMemory_throw _
  · exact leavesMemory_pure _

theorem LeavesMemory.fetch {α : Type} {x : EStateM Violation.Reason FormatState α}
    (h : LeavesMemory x) : LeavesMemory (fetch x) := by
  intro s
  rw [run_fetch]
  cases hrun : x.run s with
  | ok a s' => exact h.of_ok hrun
  | error reason s' => exact h.of_error hrun

/-! ### Arguments -/

theorem leavesMemory_takeArgument {α : Type}
    (next : VariadicFrame → Memory → Except Violation.Reason (α × VariadicFrame)) :
    LeavesMemory (takeArgument next) := by
  intro s
  unfold takeArgument EStateM.run
  dsimp only
  cases next s.frame s.memory with
  | ok taken => rfl
  | error reason => rfl

theorem leavesMemory_nextInt : LeavesMemory (Printf.fetch frameSource.nextInt) :=
  (leavesMemory_takeArgument _).fetch

theorem leavesMemory_nextLong : LeavesMemory (Printf.fetch frameSource.nextLong) :=
  (leavesMemory_takeArgument _).fetch

theorem leavesMemory_text (a : UInt16) (most : Option Nat) :
    LeavesMemory (Printf.fetch (frameSource.text a most)) := by
  refine LeavesMemory.fetch fun s => ?_
  unfold frameSource EStateM.run
  dsimp only
  cases textAt s.memory a most with
  | ok text => rfl
  | error reason => rfl

theorem leavesMemory_nextSigned (length : Length) :
    LeavesMemory (nextSigned frameSource length) := by
  cases length with
  | char => exact leavesMemory_nextInt.bind fun _ => leavesMemory_pure _
  | int => exact leavesMemory_nextInt.bind fun _ => leavesMemory_pure _
  | long => exact leavesMemory_nextLong.bind fun _ => leavesMemory_pure _

theorem leavesMemory_nextUnsigned (length : Length) :
    LeavesMemory (nextUnsigned frameSource length) := by
  cases length with
  | char => exact leavesMemory_nextInt.bind fun _ => leavesMemory_pure _
  | int => exact leavesMemory_nextInt.bind fun _ => leavesMemory_pure _
  | long => exact leavesMemory_nextLong.bind fun _ => leavesMemory_pure _

theorem leavesMemory_nextText (precision : Option Nat) :
    LeavesMemory (nextText frameSource precision) := by
  refine leavesMemory_nextInt.bind fun pointer => ?_
  split
  · exact leavesMemory_pure _
  · exact (leavesMemory_text pointer precision).bind fun _ => leavesMemory_pure _

theorem leavesMemory_style (d : Directive) : LeavesMemory (d.style frameSource) := by
  unfold Directive.style
  -- each of the two fields takes an argument if it is a star
  cases d.width with
  | number n =>
    rcases d.precision with - | (p | -)
    · exact leavesMemory_pure _
    · exact leavesMemory_pure _
    · exact leavesMemory_nextInt.bind fun _ => leavesMemory_pure _
  | argument =>
    refine leavesMemory_nextInt.bind fun _ => ?_
    rcases d.precision with - | (p | -)
    · exact leavesMemory_pure _
    · exact leavesMemory_pure _
    · exact leavesMemory_nextInt.bind fun _ => leavesMemory_pure _

/-! ### Directives -/

/-- Only `%n` changes memory. -/
theorem leavesMemory_render {d : Directive} (h : d.conversion ≠ .count) (written : Nat) :
    LeavesMemory (d.render frameSource written) := by
  refine (leavesMemory_style d).bind fun style => ?_
  cases hconversion : d.conversion with
  | percent => exact leavesMemory_pure _
  | signed => exact (leavesMemory_nextSigned _).bind fun _ => leavesMemory_confined _ _
  | unsigned => exact (leavesMemory_nextUnsigned _).bind fun _ => leavesMemory_confined _ _
  | octal => exact (leavesMemory_nextUnsigned _).bind fun _ => leavesMemory_confined _ _
  | hex upper => exact (leavesMemory_nextUnsigned _).bind fun _ => leavesMemory_confined _ _
  | character => exact leavesMemory_nextInt.bind fun _ => leavesMemory_confined _ _
  | text => exact (leavesMemory_nextText _).bind fun _ => leavesMemory_confined _ _
  | pointer => exact leavesMemory_nextInt.bind fun _ => leavesMemory_confined _ _
  | count => exact absurd hconversion h
  | unsupported c => exact leavesMemory_throw _
  | missing => exact leavesMemory_throw _

/-- Where a `%n` stores its count: the argument behind those that its stars take. -/
def countTarget (d : Directive) : Rendering Violation.Reason FormatState UInt16 := do
  let _ ← d.style frameSource
  fetch frameSource.nextInt

theorem leavesMemory_countTarget (d : Directive) : LeavesMemory (countTarget d) :=
  (leavesMemory_style d).bind fun _ => leavesMemory_nextInt

theorem run_render_count {d : Directive} (h : d.conversion = .count) (written : Nat)
    (s : FormatState) :
    (d.render frameSource written).run s =
      match (countTarget d).run s with
      | .ok target s' => .ok [] (storeCount target (UInt32.ofNat written) d.length.size s')
      | .error e s' => .error e s' := by
  unfold Directive.render countTarget
  rw [EStateM.run_bind, EStateM.run_bind]
  cases (d.style frameSource).run s with
  | error e s' => rfl
  | ok style s' =>
    dsimp only
    rw [h]
    dsimp only
    rw [EStateM.run_bind]
    cases (fetch frameSource.nextInt).run s' with
    | error e s'' => rfl
    | ok target s'' => rfl

/-- A directive that cannot be rendered has not changed memory, `%n` included. -/
theorem memory_render_error {d : Directive} {written : Nat} {s s' : FormatState}
    {e : Printf.Error Violation.Reason}
    (h : (d.render frameSource written).run s = .error e s') : s'.memory = s.memory := by
  by_cases hcount : d.conversion = .count
  · rw [run_render_count hcount] at h
    cases htarget : (countTarget d).run s with
    | ok target s₁ =>
      rw [htarget] at h
      cases h
    | error e₁ s₁ =>
      rw [htarget] at h
      cases h
      exact (leavesMemory_countTarget d).of_error htarget
  · exact (leavesMemory_render hcount written).of_error h

/-! ### Stores -/

/-- A count that was stored: the number of bytes written before it, in some bytes at an address. -/
structure CountStore where
  target : UInt16
  written : Nat
  bytes : Nat
  deriving DecidableEq, Repr

/-- The bytes stored: the digits to the base 256, least significant first, as many as fit. -/
def CountStore.digits (store : CountStore) : List UInt8 :=
  (List.range store.bytes).map fun i => UInt8.ofNat (store.written / 256 ^ i)

/-- The memory with the count stored. -/
def CountStore.apply (m : Memory) (store : CountStore) : Memory :=
  m.writeBytes store.target store.digits

/-- The four bytes of a double word are the lowest four digits. -/
theorem bytes_ofNat (n : Nat) :
    [lowByte (UInt32.ofNat n).toUInt16, highByte (UInt32.ofNat n).toUInt16,
        lowByte (UInt32.ofNat n / 0x10000).toUInt16, highByte (UInt32.ofNat n / 0x10000).toUInt16] =
      (List.range 4).map fun i => UInt8.ofNat (n / 256 ^ i) := by
  show _ = [UInt8.ofNat (n / 256 ^ 0), UInt8.ofNat (n / 256 ^ 1), UInt8.ofNat (n / 256 ^ 2),
    UInt8.ofNat (n / 256 ^ 3)]
  simp only [List.cons.injEq, and_true, ← UInt8.toNat_inj, toNat_lowByte, toNat_highByte,
    UInt32.toNat_toUInt16, UInt32.toNat_div, UInt32.toNat_ofNat', UInt32.reduceToNat,
    UInt8.toNat_ofNat']
  omega

theorem memory_storeCount (target : UInt16) (written : Nat) (length : Length) (s : FormatState) :
    (storeCount target (UInt32.ofNat written) length.size s).memory =
      CountStore.apply s.memory ⟨target, written, length.size⟩ := by
  unfold storeCount CountStore.apply CountStore.digits
  dsimp only
  rw [bytes_ofNat, ← List.map_take, List.take_range]
  cases length with
  | char => rfl
  | int => rfl
  | long => rfl

/-- The count that a piece stores when it comes after `written` bytes. -/
def countStore? (written : Nat) (s : FormatState) : Piece → Option CountStore
  | .literal _ => none
  | .directive d =>
    if d.conversion = .count then
      match (countTarget d).run s with
      | .ok target _ => some ⟨target, written, d.length.size⟩
      | .error _ _ => none
    else none

/-- The counts that pieces store, the first coming after `written` bytes, up to a piece that cannot
be rendered. -/
def countStores (written : Nat) (s : FormatState) : List Piece → List CountStore
  | [] => []
  | p :: ps =>
    match (p.render frameSource written).run s with
    | .ok text s' => (countStore? written s p).toList ++ countStores (written + text.length) s' ps
    | .error _ _ => []

/-- The size of the count that a piece stores, if it is a `%n`. -/
def countBytes? : Piece → Option Nat
  | .literal _ => none
  | .directive d => if d.conversion = .count then some d.length.size else none

/-- A piece that is rendered has stored its count, if it is a `%n`, and else changed nothing. -/
theorem render_ok {p : Piece} {written : Nat} {s s' : FormatState} {text : List UInt8}
    (h : (p.render frameSource written).run s = .ok text s') :
    (countStore? written s p).map CountStore.bytes = countBytes? p ∧
      s'.memory = (countStore? written s p).toList.foldl CountStore.apply s.memory := by
  cases p with
  | literal b =>
    cases h
    exact ⟨rfl, rfl⟩
  | directive d =>
    have hrender : (d.render frameSource written).run s = .ok text s' := h
    unfold countStore? countBytes?
    by_cases hcount : d.conversion = .count
    · rw [run_render_count hcount] at hrender
      simp only [if_pos hcount]
      cases htarget : (countTarget d).run s with
      | error e s₁ =>
        rw [htarget] at hrender
        cases hrender
      | ok target s₁ =>
        rw [htarget] at hrender
        cases hrender
        -- the style and the target are fetched without a store, which leaves the count itself
        have hmemory := (leavesMemory_countTarget d).of_ok htarget
        refine ⟨rfl, ?_⟩
        rw [← hmemory]
        exact memory_storeCount target written d.length s₁
    · simp only [if_neg hcount]
      exact ⟨rfl, (leavesMemory_render hcount written).of_ok hrender⟩

/-- Pieces that are rendered have stored their counts, one for every `%n`. -/
theorem renderPieces_ok {ps : List Piece} {written : Nat} {s s' : FormatState}
    {text : List UInt8} (h : (renderPieces frameSource written ps).run s = .ok text s') :
    (countStores written s ps).map CountStore.bytes = ps.filterMap countBytes? ∧
      s'.memory = (countStores written s ps).foldl CountStore.apply s.memory := by
  -- the stores before a piece and what was written before it are carried along
  induction ps generalizing written s text with
  | nil =>
    cases h
    exact ⟨rfl, rfl⟩
  | cons p ps ih =>
    obtain ⟨first, s₁, hp, h⟩ := exists_of_run_bind_eq_ok h
    obtain ⟨rest, s₂, hps, h⟩ := exists_of_run_bind_eq_ok h
    cases h
    obtain ⟨hbytes, hmemory⟩ := render_ok hp
    obtain ⟨hbytes', hmemory'⟩ := ih hps
    simp only [countStores, hp]
    constructor
    · rw [List.map_append, hbytes', List.filterMap_cons, ← hbytes]
      cases countStore? written s p with
      | none => rfl
      | some store => rfl
    · rw [List.foldl_append, ← hmemory, hmemory']

/-- Pieces that cannot be rendered have a first one that cannot, and it is a directive. -/
theorem exists_failing_directive {ps : List Piece} {written : Nat} {s s' : FormatState}
    {e : Printf.Error Violation.Reason}
    (h : (renderPieces frameSource written ps).run s = .error e s') :
    ∃ before d after text s₁, ps = before ++ .directive d :: after ∧
      (renderPieces frameSource written before).run s = .ok text s₁ ∧
      (d.render frameSource (written + text.length)).run s₁ = .error e s' := by
  induction ps generalizing written s with
  | nil => cases h
  | cons p ps ih =>
    rcases run_bind_eq_error h with hp | ⟨first, s₁, hp, h⟩
    · cases p with
      | literal b => cases hp
      | directive d => exact ⟨[], d, ps, [], s, rfl, rfl, hp⟩
    rcases run_bind_eq_error h with hps | ⟨rest, s₂, -, h⟩
    · obtain ⟨before, d, after, text, s₃, rfl, hbefore, hfails⟩ := ih hps
      refine ⟨p :: before, d, after, first ++ text, s₃, rfl, ?_, ?_⟩
      · rw [renderPieces, run_bind_of_ok hp, run_bind_of_ok hbefore]
        rfl
      · rw [List.length_append, ← Nat.add_assoc]
        exact hfails
    · cases h

/-- Storing counts changes nothing outside their bytes. -/
theorem read_foldl_apply (m : Memory) {stores : List CountStore} {a : UInt16}
    (h : ∀ store ∈ stores, store.bytes ≤ (a - store.target).toNat) :
    (stores.foldl CountStore.apply m).read a = m.read a := by
  induction stores generalizing m with
  | nil => rfl
  | cons store stores ih =>
    obtain ⟨hstore, hstores⟩ := List.forall_mem_cons.mp h
    rw [List.foldl_cons, ih _ hstores]
    refine m.read_writeBytes_of_le ?_
    rw [CountStore.digits, List.length_map, List.length_range]
    exact hstore

end Bench65.Call
