import Bench65.Call.Hooks
import Bench65.Proofs.Call.CStack
import Bench65.Proofs.Call.Console
import Bench65.Proofs.Call.Fetches
import Mathlib.Data.Set.BooleanAlgebra
import Mathlib.Order.CompletePartialOrder

/-!
# The frame of a variadic call

`printf` and the `open` hook find their arguments in a frame on the C stack whose size the caller
passes in `Y`. `recordedPrintf` and `recordedOpen` do the same with a source that keeps a record of
the arguments that are fetched. `frame_discipline` says that the answer is that of the routine, and
what the record shows (`KeepsFrame`): nothing is fetched from a frame that is odd or too small, the
arguments of any other lie in it one below the other from its end, and if the call returns, the
whole frame has been removed, whatever was fetched from it and wherever `%n` stored its counts.

That the arguments lie so is a fact about `layout` (`offset_add_size_le`, `pairwise_layout`), and
`recorded_format` says that this is where a format finds them.
-/

namespace Bench65

open Printf

namespace VariadicFrame

variable {s : CStack} {m : Memory} {y fixed : UInt8}

theorem ofCall_of_odd (h : y % 2 ≠ 0) : ofCall s m y fixed = .error (.oddByteCount y) :=
  if_pos h

theorem ofCall_of_lt (h : y % 2 = 0) (h' : y < fixed) :
    ofCall s m y fixed = .error (.missingFixedArguments y fixed) := by
  rw [ofCall, if_neg (not_not_intro h), if_pos h']

theorem ofCall_of_le (h : y % 2 = 0) (h' : fixed ≤ y) :
    ofCall s m y fixed = .ok ⟨s.pointer m, y, y⟩ := by
  rw [ofCall, if_neg (not_not_intro h), if_neg (UInt8.not_lt.mpr h')]

end VariadicFrame

namespace Call

/-! ### Where arguments lie -/

/-- The addresses of some bytes from an address on, around the end of the address space. -/
def span (a : UInt16) (size : Nat) : Set UInt16 :=
  {x | (x - a).toNat < size}

/-- The addresses of an argument. -/
def Fetch.addresses (f : Fetch) : Set UInt16 :=
  span f.address f.size

/-- How far above the base of the frame an argument starts. -/
def Fetch.offset (base : UInt16) (f : Fetch) : Nat :=
  (f.address - base).toNat

/-- What lies in an argument lies no further from the base than the argument reaches. -/
theorem Fetch.bounds_of_mem {base x : UInt16} {f : Fetch} (hfit : f.offset base + f.size ≤ 0x10000)
    (hx : x ∈ f.addresses) :
    f.offset base ≤ (x - base).toNat ∧ (x - base).toNat < f.offset base + f.size := by
  have hx' : (x - f.address).toNat < f.size := hx
  have hb := base.toNat_lt
  have hf := f.address.toNat_lt
  have hxlt := x.toNat_lt
  unfold offset at hfit ⊢
  rw [UInt16.toNat_sub] at hfit hx' ⊢
  rw [UInt16.toNat_sub]
  omega

theorem offset_head {base : UInt16} {n size : Nat} (h : n < 0x10000) :
    Fetch.offset base ⟨base + UInt16.ofNat n, size⟩ = n := by
  have hsub : base + UInt16.ofNat n - base = UInt16.ofNat n := by
    rw [UInt16.add_comm, UInt16.add_sub_cancel]
  show (base + UInt16.ofNat n - base).toNat = n
  rw [hsub, UInt16.toNat_ofNat']
  exact Nat.mod_eq_of_lt h

section Layout

variable {base : UInt16} {left : Nat} {sizes : List Nat}

/-- Arguments that fit into what is left lie below its end. -/
theorem offset_add_size_le (hleft : left < 0x10000) (hsum : sizes.sum ≤ left) {f : Fetch}
    (hf : f ∈ layout base left sizes) : f.offset base + f.size ≤ left := by
  -- the first one ends where `left` does, and the others lie below its start
  induction sizes generalizing left with
  | nil => cases hf
  | cons size sizes ih =>
    rw [List.sum_cons] at hsum
    rcases List.mem_cons.mp hf with rfl | hf
    · rw [offset_head (by omega)]
      show left - size + size ≤ left
      omega
    · have hle := ih (by omega) (by omega) hf
      omega

/-- Each of them ends where the one before it starts, or below. -/
theorem pairwise_layout (hleft : left < 0x10000) (hsum : sizes.sum ≤ left) :
    (layout base left sizes).Pairwise fun f g => g.offset base + g.size ≤ f.offset base := by
  induction sizes generalizing left with
  | nil => exact .nil
  | cons size sizes ih =>
    rw [List.sum_cons] at hsum
    refine .cons (fun g hg => ?_) (ih (by omega) (by omega))
    rw [offset_head (by omega)]
    exact offset_add_size_le (by omega) (by omega) hg

theorem subset_of_mem_layout (hleft : left < 0x10000) (hsum : sizes.sum ≤ left) {f : Fetch}
    (hf : f ∈ layout base left sizes) : f.addresses ⊆ span base left := by
  intro x hx
  have hle := offset_add_size_le hleft hsum hf
  have hbounds := Fetch.bounds_of_mem (Nat.le_trans hle hleft.le) hx
  show (x - base).toNat < left
  omega

theorem disjoint_layout (hleft : left < 0x10000) (hsum : sizes.sum ≤ left) :
    (layout base left sizes).Pairwise fun f g => Disjoint f.addresses g.addresses := by
  refine (pairwise_layout hleft hsum).imp_of_mem fun {f g} hf hg hbelow => ?_
  have hfit : ∀ f ∈ layout base left sizes, f.offset base + f.size ≤ 0x10000 :=
    fun f hf => Nat.le_trans (offset_add_size_le hleft hsum hf) hleft.le
  refine Set.disjoint_left.mpr fun x hxf hxg => ?_
  have hxf' := Fetch.bounds_of_mem (hfit f hf) hxf
  have hxg' := Fetch.bounds_of_mem (hfit g hg) hxg
  omega

theorem descending_layout (hleft : left < 0x10000) (hsum : sizes.sum ≤ left)
    (hpos : ∀ size ∈ sizes, 0 < size) :
    (layout base left sizes).Pairwise fun f g => g.offset base < f.offset base := by
  refine (pairwise_layout hleft hsum).imp_of_mem fun {f g} _ hg hbelow => ?_
  have hsize : g.size ∈ sizes := by
    rw [← map_size_layout base left sizes]
    exact List.mem_map_of_mem hg
  have := hpos g.size hsize
  omega

end Layout

/-! ### Calls with a record -/

/-- Answers a variadic call as `variadic` does, with a record of the arguments fetched. -/
def recordedVariadic {α : Type} (c : Call) (routine : Routine) (fixed : UInt8)
    (body : Rendering Violation.Reason FetchState α) (finish : α → Call → Answer) :
    Answer × List Fetch :=
  match VariadicFrame.ofCall c.stack c.memory c.registers.y fixed with
  | .error reason => (c.refuse routine reason, [])
  | .ok frame =>
    match body.run ⟨⟨frame, c.memory⟩, []⟩ with
    | .error e t => ((.error (failure routine e), { c with memory := t.memory }), t.fetches)
    | .ok a t => (finish a { c with memory := frame.close c.stack t.memory }, t.fetches)

/-- `printf` with a record of the arguments fetched. -/
def recordedPrintf (c : Call) : Answer × List Fetch :=
  c.recordedVariadic .printf 2 (printfText recordingSource) fun text c =>
    c.writeAndReturn .stdout text UInt16.ofNat

/-- `open` with a record of the arguments fetched. -/
def recordedOpen (c : Call) : Answer × List Fetch :=
  c.recordedVariadic .hostOpen 4 (openArguments recordingSource) fun _ c => c.goBackWith minusOne

section Bodies

variable {ε σ : Type} (source : Source ε σ)

/-- What `printf` does behind its first argument. -/
def printfRest (pointer : UInt16) : Rendering ε σ (List UInt8) := do
  let format ← fetch (source.text pointer none)
  Printf.format source format

/-- What `open` does behind its first argument. -/
def openRest (name : UInt16) : Rendering ε σ Unit := do
  let _ ← fetch source.nextInt
  let _ ← fetch (source.text name none)
  pure ()

theorem printfText_eq : printfText source = fetch source.nextInt >>= printfRest source := rfl

theorem openArguments_eq : openArguments source = fetch source.nextInt >>= openRest source := rfl

end Bodies

/-- The first argument of a variadic call, at the end of its frame. -/
def firstFetch (c : Call) : Fetch :=
  ⟨c.stack.pointer c.memory + c.registers.y.toUInt16 - 2, 2⟩

/-- The value of the first argument. -/
def firstArgument (c : Call) : UInt16 :=
  c.memory.readWord c.firstFetch.address

/-- The state behind the first argument. -/
def afterFirst (c : Call) : FetchState where
  frame := ⟨c.stack.pointer c.memory, c.registers.y, c.registers.y - 2⟩
  memory := c.memory
  fetches := [c.firstFetch]

/-- The sizes of the arguments that a call of `printf` is asked for behind its first one: those of
the format, if the first one leads to one. -/
def formatSizes (c : Call) : List Nat :=
  match textAt c.memory c.firstArgument none with
  | .ok format => argumentSizes format
  | .error _ => []

/-- The answer to a variadic call with enough arguments, from what came of them: if they served, the
whole frame is removed. -/
def conclude {α : Type} (c : Call) (routine : Routine) (finish : α → Call → Answer) :
    EStateM.Result (Error Violation.Reason) FormatState α → Answer
  | .error e s => (.error (failure routine e), { c with memory := s.memory })
  | .ok a s => finish a { c with
      memory := c.stack.setPointer s.memory
        (c.stack.pointer c.memory + c.registers.y.toUInt16) }

section Discipline

variable {c : Call} {routine : Routine} {fixed : UInt8} {α : Type}
  {rest' : UInt16 → Rendering Violation.Reason FetchState α}
  {rest : UInt16 → Rendering Violation.Reason FormatState α} {finish : α → Call → Answer}
  {asked : List Nat} {r : EStateM.Result (Error Violation.Reason) FormatState α}

theorem address_first {y : UInt8} (h : 2 ≤ y) (base : UInt16) :
    base + UInt16.ofNat (y.toNat - 2) = base + y.toUInt16 - 2 := by
  have hle := UInt8.le_iff_toNat_le.mp h
  have hy := y.toNat_lt
  have hbase := base.toNat_lt
  apply UInt16.toNat_inj.mp
  rw [UInt16.toNat_sub, UInt16.toNat_add, UInt16.toNat_add, UInt16.toNat_ofNat',
    UInt8.toNat_toUInt16]
  simp only [UInt8.reduceToNat, UInt16.reduceToNat] at hle ⊢
  omega

theorem take_first (h : 2 ≤ c.registers.y) :
    VariadicFrame.take ⟨c.stack.pointer c.memory, c.registers.y, c.registers.y⟩ 2 =
      .ok (c.firstFetch.address, c.afterFirst.frame) := by
  rw [VariadicFrame.take_of_le h]
  exact congrArg (fun a => Except.ok (a, c.afterFirst.frame)) (address_first h _)

theorem run_first_recording (h : 2 ≤ c.registers.y) :
    (fetch recordingSource.nextInt).run
        ⟨⟨⟨c.stack.pointer c.memory, c.registers.y, c.registers.y⟩, c.memory⟩, []⟩ =
      .ok c.firstArgument c.afterFirst := by
  rw [run_fetch]
  unfold recordingSource fetchArgument EStateM.run
  dsimp only
  rw [take_first h]
  rfl

theorem run_first (h : 2 ≤ c.registers.y) :
    (fetch frameSource.nextInt).run
        ⟨⟨c.stack.pointer c.memory, c.registers.y, c.registers.y⟩, c.memory⟩ =
      .ok c.firstArgument c.afterFirst.toFormatState := by
  have hnext : VariadicFrame.nextWord ⟨c.stack.pointer c.memory, c.registers.y, c.registers.y⟩
      c.memory = .ok (c.firstArgument, c.afterFirst.frame) := by
    rw [VariadicFrame.nextWord, take_first h]
    rfl
  exact run_nextInt hnext

/-- From a frame that has room for it the first argument is taken, and the rest of the arguments
decide how the call comes to its end. -/
theorem variadic_of_le (heven : c.registers.y % 2 = 0) (hfixed : fixed ≤ c.registers.y)
    (hfirst : 2 ≤ c.registers.y) :
    c.variadic routine fixed (fetch frameSource.nextInt >>= rest) finish =
      c.conclude routine finish ((rest c.firstArgument).run c.afterFirst.toFormatState) := by
  unfold variadic
  rw [VariadicFrame.ofCall_of_le heven hfixed]
  dsimp only
  rw [run_bind_of_ok (run_first hfirst)]
  cases (rest c.firstArgument).run c.afterFirst.toFormatState with
  | ok a s => rfl
  | error e s => rfl

theorem recordedVariadic_of_le (heven : c.registers.y % 2 = 0) (hfixed : fixed ≤ c.registers.y)
    (hfirst : 2 ≤ c.registers.y)
    (hrest : Recorded c.afterFirst asked ((rest' c.firstArgument).run c.afterFirst) r) :
    c.recordedVariadic routine fixed (fetch recordingSource.nextInt >>= rest') finish =
      (c.conclude routine finish r,
        (finalState ((rest' c.firstArgument).run c.afterFirst)).fetches) := by
  unfold recordedVariadic
  rw [VariadicFrame.ofCall_of_le heven hfixed]
  dsimp only
  rw [run_bind_of_ok (run_first_recording hfirst)]
  generalize (rest' c.firstArgument).run c.afterFirst = r' at hrest
  cases hrest with
  | ok htook => rfl
  | error taken rest hsizes htook hcause => rfl

/-- The record changes nothing in the answer. -/
theorem recordedVariadic_fst (hfixed : 2 ≤ fixed)
    (hrest : Recorded c.afterFirst asked ((rest' c.firstArgument).run c.afterFirst)
      ((rest c.firstArgument).run c.afterFirst.toFormatState)) :
    (c.recordedVariadic routine fixed (fetch recordingSource.nextInt >>= rest') finish).1 =
      c.variadic routine fixed (fetch frameSource.nextInt >>= rest) finish := by
  by_cases heven : c.registers.y % 2 = 0
  · by_cases hle : fixed ≤ c.registers.y
    · have hfirst := UInt8.le_trans hfixed hle
      rw [recordedVariadic_of_le heven hle hfirst hrest, variadic_of_le heven hle hfirst]
    · have hlt := UInt8.not_le.mp hle
      rw [recordedVariadic, variadic, VariadicFrame.ofCall_of_lt heven hlt]
  · rw [recordedVariadic, variadic, VariadicFrame.ofCall_of_odd heven]

theorem recorded_printfRest (c : Call) :
    Recorded c.afterFirst c.formatSizes
      ((printfRest recordingSource c.firstArgument).run c.afterFirst)
      ((printfRest frameSource c.firstArgument).run c.afterFirst.toFormatState) := by
  refine (recorded_text c.firstArgument none c.afterFirst).bind fun format t hrun => ?_
  have hformat : textAt c.memory c.firstArgument none = .ok format := textAt_of_run_text hrun
  -- the format found is the one whose sizes are asked for
  show Recorded t c.formatSizes _ _
  rw [formatSizes, hformat]
  exact recorded_format format t

theorem recorded_openRest (name : UInt16) (t : FetchState) :
    Recorded t [2] ((openRest recordingSource name).run t)
      ((openRest frameSource name).run t.toFormatState) :=
  (recorded_nextInt t).bind_nil fun _ t' => (recorded_text name none t').bind_pure fun _ => ()

theorem pos_of_mem_formatSizes {size : Nat} (h : size ∈ c.formatSizes) : 0 < size := by
  unfold formatSizes at h
  cases hformat : textAt c.memory c.firstArgument none with
  | ok format =>
    rw [hformat] at h
    exact pos_of_mem_argumentSizes h
  | error reason =>
    rw [hformat] at h
    cases h

theorem recordedPrintf_fst (c : Call) : c.recordedPrintf.1 = c.printf := by
  rw [recordedPrintf, printf, printfText_eq, printfText_eq]
  exact recordedVariadic_fst (UInt8.le_refl 2) (recorded_printfRest c)

theorem recordedOpen_fst (c : Call) : c.recordedOpen.1 = c.hostOpen := by
  rw [recordedOpen, hostOpen, openArguments_eq, openArguments_eq]
  exact recordedVariadic_fst (by decide) (recorded_openRest c.firstArgument c.afterFirst)

end Discipline

/-! ### The discipline -/

/-- How a call keeps to the frame of `Y` bytes from the stack pointer on, when it is asked for
arguments of the sizes given. -/
structure KeepsFrame (c : Call) (routine : Routine) (fixed : UInt8) (asked : List Nat)
    (answer : Answer) (fetches : List Fetch) : Prop where
  -- a frame of the wrong size is refused as a whole, and the call stays as it was
  odd : c.registers.y % 2 ≠ 0 →
    answer = c.refuse routine (.oddByteCount c.registers.y) ∧ fetches = []
  short : c.registers.y % 2 = 0 → c.registers.y < fixed →
    answer = c.refuse routine (.missingFixedArguments c.registers.y fixed) ∧ fetches = []
  -- any other is used from its end downwards
  first : c.registers.y % 2 = 0 → fixed ≤ c.registers.y → fetches.head? = some c.firstFetch
  inside : ∀ f ∈ fetches, f.addresses ⊆ span (c.stack.pointer c.memory) c.registers.y.toNat
  descending : fetches.Pairwise fun f g =>
    g.offset (c.stack.pointer c.memory) < f.offset (c.stack.pointer c.memory)
  disjoint : fetches.Pairwise fun f g => Disjoint f.addresses g.addresses
  -- the arguments asked for are taken in order until one does not fit
  sizes : fetches.map Fetch.size <+: asked
  exhausted : ∀ needed left supplied,
    answer.1 = .error (.violation ⟨routine, .argumentsExhausted needed left supplied⟩) →
      fetches.map Fetch.size ++ [needed] <+: asked ∧ left < needed ∧
        (fetches.map Fetch.size).sum + left = c.registers.y.toNat ∧
        supplied = c.registers.y.toNat
  -- and the whole frame is removed, not what was taken
  returned : ∀ c', answer = (.ok .goBack, c') →
    fetches.map Fetch.size = asked ∧ c'.stack = c.stack ∧
      c'.stack.pointer c'.memory = c.stack.pointer c.memory + c.registers.y.toUInt16

section KeepsFrame

variable {c : Call} {routine : Routine} {fixed : UInt8} {α : Type}
  {rest' : UInt16 → Rendering Violation.Reason FetchState α} {finish : α → Call → Answer}
  {asked : List Nat} {r : EStateM.Result (Error Violation.Reason) FormatState α}

/-- The first argument and the others that were taken behind it. -/
theorem took_first {taken : List Nat} {t : FetchState} (hfirst : 2 ≤ c.registers.y)
    (h : c.afterFirst.Took taken t) :
    (2 :: taken).sum + t.frame.left.toNat = c.registers.y.toNat ∧
      t.fetches = layout (c.stack.pointer c.memory) c.registers.y.toNat (2 :: taken) := by
  have hleft : c.afterFirst.frame.left.toNat = c.registers.y.toNat - 2 :=
    UInt8.toNat_sub_of_le _ _ hfirst
  have hle := UInt8.le_iff_toNat_le.mp hfirst
  simp only [UInt8.reduceToNat] at hle
  have hsum := h.left_add_eq
  refine ⟨by rw [List.sum_cons]; omega, ?_⟩
  rw [h.fetches_eq, hleft, layout, address_first hfirst]
  rfl

/-- A call that is refused for the size of its frame fetches nothing. -/
theorem keepsFrame_refuse {reason : Violation.Reason}
    (hodd : c.registers.y % 2 ≠ 0 → reason = .oddByteCount c.registers.y)
    (heven : c.registers.y % 2 = 0 →
      c.registers.y < fixed ∧ reason = .missingFixedArguments c.registers.y fixed) :
    c.KeepsFrame routine fixed asked (c.refuse routine reason) [] where
  odd h := ⟨by rw [hodd h], rfl⟩
  short h _ := ⟨by rw [(heven h).2], rfl⟩
  first h hle := absurd (heven h).1 (UInt8.not_lt.mpr hle)
  inside _ h := nomatch h
  descending := .nil
  disjoint := .nil
  sizes := List.nil_prefix
  exhausted needed left supplied h := by
    cases h
    by_cases hparity : c.registers.y % 2 = 0
    · cases (heven hparity).2
    · cases hodd hparity
  returned _ h := nomatch h

/-- A call whose frame has room for the fixed arguments fetches arguments one below the other. -/
theorem keepsFrame_of_took {answer : Answer} {taken left : List Nat} {t : FetchState}
    (heven : c.registers.y % 2 = 0) (hle : fixed ≤ c.registers.y) (hfixed : 2 ≤ fixed)
    (hsizes : asked = taken ++ left) (hasked : ∀ size ∈ asked, 0 < size)
    (htook : c.afterFirst.Took taken t)
    (hexhausted : ∀ needed left' supplied,
      answer.1 = .error (.violation ⟨routine, .argumentsExhausted needed left' supplied⟩) →
        left.head? = some needed ∧ left' < needed ∧ left' = t.frame.left.toNat ∧
          supplied = c.registers.y.toNat)
    (hreturned : ∀ c', answer = (.ok .goBack, c') → left = [] ∧ c'.stack = c.stack ∧
      c'.stack.pointer c'.memory = c.stack.pointer c.memory + c.registers.y.toUInt16) :
    c.KeepsFrame routine fixed (2 :: asked) answer t.fetches := by
  obtain ⟨hsum, hfetches⟩ := took_first (UInt8.le_trans hfixed hle) htook
  have hlt : c.registers.y.toNat < 0x10000 := Nat.lt_trans c.registers.y.toNat_lt (by decide)
  -- the fetches are laid out from the top of the frame, and what is laid out fits in it
  have hfits : (2 :: taken).sum ≤ c.registers.y.toNat := by omega
  have hmap : t.fetches.map Fetch.size = 2 :: taken := by
    rw [hfetches, map_size_layout]
  have hpos : ∀ size ∈ 2 :: taken, 0 < size := by
    refine List.forall_mem_cons.mpr ⟨by decide, fun size hsize => hasked size ?_⟩
    rw [hsizes]
    exact List.mem_append_left _ hsize
  exact {
    odd := fun h => absurd heven h
    short := fun _ h => absurd h (UInt8.not_lt.mpr hle)
    first := fun _ _ => by rw [htook.fetches_eq]; rfl
    inside := fun f hf => by
      rw [hfetches] at hf
      exact subset_of_mem_layout hlt hfits hf
    descending := by
      rw [hfetches]
      exact descending_layout hlt hfits hpos
    disjoint := by
      rw [hfetches]
      exact disjoint_layout hlt hfits
    sizes := by
      rw [hmap, hsizes]
      exact ⟨left, rfl⟩
    exhausted := fun needed left' supplied h => by
      obtain ⟨hhead, hlt', rfl, hsupplied⟩ := hexhausted needed left' supplied h
      obtain ⟨rest, rfl⟩ := List.head?_eq_some_iff.mp hhead
      refine ⟨?_, hlt', by rw [hmap, hsum], hsupplied⟩
      rw [hmap, hsizes]
      exact ⟨rest, by simp⟩
    returned := fun c' h => by
      obtain ⟨rfl, hstack⟩ := hreturned c' h
      refine ⟨?_, hstack⟩
      rw [hmap, hsizes, List.append_nil] }

theorem keepsFrame_variadic (hfixed : 2 ≤ fixed) (hasked : ∀ size ∈ asked, 0 < size)
    (hrest : Recorded c.afterFirst asked ((rest' c.firstArgument).run c.afterFirst) r)
    (hfinish : ∀ a d, ∃ d', finish a d = (.ok .goBack, d') ∧ d'.stack = d.stack ∧
      d'.memory = d.memory) :
    c.KeepsFrame routine fixed (2 :: asked)
      (c.recordedVariadic routine fixed (fetch recordingSource.nextInt >>= rest') finish).1
      (c.recordedVariadic routine fixed (fetch recordingSource.nextInt >>= rest') finish).2 := by
  by_cases heven : c.registers.y % 2 = 0
  · by_cases hle : fixed ≤ c.registers.y
    · rw [recordedVariadic_of_le heven hle (UInt8.le_trans hfixed hle) hrest]
      generalize (rest' c.firstArgument).run c.afterFirst = r' at hrest
      cases hrest with
      | @ok a t htook =>
        -- the pointer is stored after all counts, so what they did to its cell does not matter
        obtain ⟨d', hd', hstack, hmemory⟩ :=
          hfinish a { c with
            memory := c.stack.setPointer t.memory
              (c.stack.pointer c.memory + c.registers.y.toUInt16) }
        refine keepsFrame_of_took heven hle hfixed (List.append_nil _).symm hasked htook
          (fun needed left supplied h => ?_) fun c' h => ?_
        · rw [conclude, hd'] at h
          cases h
        · rw [conclude, hd'] at h
          cases h
          refine ⟨rfl, hstack, ?_⟩
          rw [hstack, hmemory]
          exact CStack.pointer_setPointer _ _ _
      | @error e t taken rest hsizes htook hcause =>
        refine keepsFrame_of_took heven hle hfixed hsizes hasked htook
          (fun needed left supplied h => ?_) fun c' h => nomatch h
        -- of the errors of the arguments only exhaustion is one of the frame
        rcases hcause with ⟨needed', hhead, hlt, rfl⟩ | hother
        · cases h
          exact ⟨hhead, hlt, rfl, congrArg UInt8.toNat htook.supplied_eq⟩
        · cases hother with
          | truncated => cases h
          | unsupported b => cases h
          | unterminatedText a => cases h
          | tooLong => cases h
    · have hlt := UInt8.not_le.mp hle
      rw [recordedVariadic, VariadicFrame.ofCall_of_lt heven hlt]
      exact keepsFrame_refuse (fun h => absurd heven h) fun _ => ⟨hlt, rfl⟩
  · rw [recordedVariadic, VariadicFrame.ofCall_of_odd heven]
    exact keepsFrame_refuse (fun _ => rfl) fun h => absurd h heven

/-- A fetch that fails has consumed nothing, and it fails exactly if fewer bytes are left than it
needs. -/
theorem takeArgument_eq_error_iff {β : Type} (size : UInt8) (read : Memory → UInt16 → β)
    {next : VariadicFrame → Memory → Except Violation.Reason (β × VariadicFrame)}
    (hnext : ∀ frame m, next frame m = (frame.take size).map fun (a, frame) => (read m a, frame))
    {s s' : FormatState} {reason : Violation.Reason} :
    (takeArgument next).run s = .error reason s' ↔
      s.frame.left.toNat < size.toNat ∧ s' = s ∧
        reason = .argumentsExhausted size.toNat s.frame.left.toNat s.frame.supplied.toNat := by
  unfold takeArgument EStateM.run
  dsimp only
  rw [hnext]
  -- a fetch fails for the bytes left and for nothing else
  by_cases h : s.frame.left < size
  · rw [VariadicFrame.take_of_lt h]
    constructor
    · intro heq
      cases heq
      exact ⟨h, rfl, rfl⟩
    · rintro ⟨-, rfl, rfl⟩
      rfl
  · rw [VariadicFrame.take_of_le (UInt8.not_lt.mp h)]
    constructor
    · intro heq
      cases heq
    · rintro ⟨hlt, -⟩
      exact absurd hlt h

end KeepsFrame

/-- **Variadic calls keep to their frame.** What is answered with a record is what `printf` and
`open` answer, and the record shows how they used the frame. A fetch fails exactly if fewer bytes
are left than it needs, and then nothing is consumed. -/
theorem frame_discipline (c : Call) :
    c.recordedPrintf.1 = c.printf ∧
      c.KeepsFrame .printf 2 (2 :: c.formatSizes) c.printf c.recordedPrintf.2 ∧
      c.recordedOpen.1 = c.hostOpen ∧
      c.KeepsFrame .hostOpen 4 [2, 2] c.hostOpen c.recordedOpen.2 ∧
      (∀ s reason s', frameSource.nextInt.run s = .error reason s' ↔
        s.frame.left.toNat < 2 ∧ s' = s ∧
          reason = .argumentsExhausted 2 s.frame.left.toNat s.frame.supplied.toNat) ∧
      (∀ s reason s', frameSource.nextLong.run s = .error reason s' ↔
        s.frame.left.toNat < 4 ∧ s' = s ∧
          reason = .argumentsExhausted 4 s.frame.left.toNat s.frame.supplied.toNat) := by
  have hprintf : c.KeepsFrame .printf 2 (2 :: c.formatSizes) c.recordedPrintf.1
      c.recordedPrintf.2 := by
    refine keepsFrame_variadic (UInt8.le_refl 2) (fun _ => pos_of_mem_formatSizes)
      (recorded_printfRest c) fun text d => ?_
    rw [writeAndReturn_eq]
    exact ⟨_, rfl, rfl, rfl⟩
  have hopen : c.KeepsFrame .hostOpen 4 [2, 2] c.recordedOpen.1 c.recordedOpen.2 :=
    keepsFrame_variadic (by decide) (by decide) (recorded_openRest c.firstArgument c.afterFirst)
      fun _ d => ⟨_, rfl, rfl, rfl⟩
  rw [recordedPrintf_fst] at hprintf
  rw [recordedOpen_fst] at hopen
  exact ⟨recordedPrintf_fst c, hprintf, recordedOpen_fst c, hopen,
    fun _ _ _ => takeArgument_eq_error_iff 2 Memory.readWord fun _ _ => rfl,
    fun _ _ _ => takeArgument_eq_error_iff 4 readLong fun _ _ => rfl⟩

/-- Stars, characters, texts, counts and short integers take a word each, long integers two. -/
example :
    argumentSizes (Ascii.bytes "%*ld %.*s %hhd %jx %lc %ln %%") = [2, 4, 2, 2, 2, 4, 2, 2] := by
  cbv

end Call

end Bench65
