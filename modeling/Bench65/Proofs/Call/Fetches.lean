import Bench65.Proofs.Call.Variadic
import Mathlib.Algebra.BigOperators.Group.List.Basic
import Mathlib.Algebra.GroupWithZero.Nat

/-!
# The arguments that a format fetches

`recordingSource` serves a format from the caller's frame like `frameSource` does and keeps a record
of every argument fetched: where it was and how many bytes it had. `recorded_format` says that the
record changes nothing in what is rendered, that the arguments lie one below the other from the end
of what was left of the frame (`layout`), and that their sizes are those the format asks for
(`argumentSizes`), all of them if it is rendered and else as many as were served before the failure.
-/

namespace Bench65

open Printf

/-! ### Sizes -/

namespace Printf

/-- The sizes of the arguments that a width or precision takes: a star takes an `int`. -/
def Field.sizes : Field → List Nat
  | number _ => []
  | argument => [2]

/-- The size of an integer argument: a `char` is passed as an `int`. -/
def Length.argumentSize : Length → Nat
  | char | int => 2
  | long => 4

/-- The sizes of the arguments that a conversion takes. Only integers come in several sizes. -/
def Conversion.sizes (length : Length) : Conversion → List Nat
  | signed | unsigned | octal | hex _ => [length.argumentSize]
  | character | text | pointer | count => [2]
  | percent | unsupported _ | missing => []

/-- The sizes of the arguments that a directive takes, in their order. -/
def Directive.sizes (d : Directive) : List Nat :=
  d.width.sizes ++ d.precision.elim [] Field.sizes ++ d.conversion.sizes d.length

/-- The sizes of the arguments that a piece takes. -/
def Piece.sizes : Piece → List Nat
  | literal _ => []
  | directive d => d.sizes

/-- The sizes of the arguments that a format asks for. -/
def argumentSizes (format : List UInt8) : List Nat :=
  (pieces format).flatMap Piece.sizes

theorem Field.pos_of_mem_sizes {field : Field} {size : Nat} (h : size ∈ field.sizes) :
    0 < size := by
  cases field with
  | number n => cases h
  | argument =>
    obtain rfl := List.mem_singleton.mp h
    decide

theorem Conversion.pos_of_mem_sizes {length : Length} {conversion : Conversion} {size : Nat}
    (h : size ∈ conversion.sizes length) : 0 < size := by
  have hlength : 0 < length.argumentSize := by
    cases length <;> decide
  cases conversion with
  | signed | unsigned | octal | hex _ =>
    obtain rfl := List.mem_singleton.mp h
    exact hlength
  | character | text | pointer | count =>
    obtain rfl := List.mem_singleton.mp h
    decide
  | percent | unsupported _ | missing => cases h

/-- No argument is empty. -/
theorem pos_of_mem_argumentSizes {format : List UInt8} {size : Nat}
    (h : size ∈ argumentSizes format) : 0 < size := by
  obtain ⟨p, -, hp⟩ := List.mem_flatMap.mp h
  cases p with
  | literal b => cases hp
  | directive d =>
    rcases List.mem_append.mp hp with hp | hconversion
    · rcases List.mem_append.mp hp with hwidth | hprecision
      · exact Field.pos_of_mem_sizes hwidth
      · cases hp : d.precision with
        | none =>
          rw [hp] at hprecision
          cases hprecision
        | some field =>
          rw [hp] at hprecision
          exact Field.pos_of_mem_sizes hprecision
    · exact Conversion.pos_of_mem_sizes hconversion

end Printf

namespace VariadicFrame

variable {f : VariadicFrame} {size : UInt8}

/-- An argument is refused exactly if fewer bytes are left than it needs. -/
theorem take_of_lt (h : f.left < size) :
    f.take size = .error (.argumentsExhausted size.toNat f.left.toNat f.supplied.toNat) :=
  if_pos h

theorem take_of_le (h : size ≤ f.left) :
    f.take size =
      .ok (f.base + UInt16.ofNat (f.left.toNat - size.toNat),
        { f with left := f.left - size }) := by
  have hleft : (f.left - size).toUInt16 = UInt16.ofNat (f.left.toNat - size.toNat) := by
    apply UInt16.toNat_inj.mp
    have hlt := f.left.toNat_lt
    rw [UInt8.toNat_toUInt16, UInt8.toNat_sub_of_le _ _ h, UInt16.toNat_ofNat']
    omega
  rw [take, if_neg (UInt8.not_lt.mpr h), ← hleft]

end VariadicFrame

namespace Call

/-! ### Records -/

/-- An argument that was fetched: the address of its first byte and its size. -/
structure Fetch where
  address : UInt16
  size : Nat
  deriving DecidableEq, Repr

/-- Arguments of some sizes one below the other, from `left` bytes above the base downwards. -/
def layout (base : UInt16) : (left : Nat) → (sizes : List Nat) → List Fetch
  | _, [] => []
  | left, size :: sizes =>
    ⟨base + UInt16.ofNat (left - size), size⟩ :: layout base (left - size) sizes

theorem layout_append (base : UInt16) (left : Nat) (sizes sizes' : List Nat) :
    layout base left (sizes ++ sizes') =
      layout base left sizes ++ layout base (left - sizes.sum) sizes' := by
  induction sizes generalizing left with
  | nil => rfl
  | cons size sizes ih => simp [layout, ih, Nat.sub_sub]

theorem map_size_layout (base : UInt16) (left : Nat) (sizes : List Nat) :
    (layout base left sizes).map Fetch.size = sizes := by
  induction sizes generalizing left with
  | nil => rfl
  | cons size sizes ih => simp [layout, ih]

/-- Where `printf` stands, with a record of the arguments fetched. -/
structure FetchState extends FormatState where
  fetches : List Fetch

/-- Takes an argument from the frame and records it. -/
def fetchArgument {α : Type} (size : UInt8) (read : Memory → UInt16 → α) :
    EStateM Violation.Reason FetchState α := fun t =>
  match t.frame.take size with
  | .ok (a, frame) =>
    .ok (read t.memory a) { t with frame, fetches := t.fetches ++ [⟨a, size.toNat⟩] }
  | .error reason => .error reason t

/-- The double word at an address, its low word first. -/
def readLong (m : Memory) (a : UInt16) : UInt32 :=
  (m.readWord a).toUInt32 + 0x10000 * (m.readWord (a + 2)).toUInt32

/-- The arguments of a format in the caller's frame, with a record of those fetched. -/
def recordingSource : Source Violation.Reason FetchState where
  nextInt := fetchArgument 2 Memory.readWord
  nextLong := fetchArgument 4 readLong
  text a most := fun t =>
    match textAt t.memory a most with
    | .ok text => .ok text t
    | .error reason => .error reason t
  store a n bytes t := { t with toFormatState := storeCount a n bytes t.toFormatState }

/-- From the first state to the second arguments of some sizes have been fetched. -/
structure FetchState.Took (t : FetchState) (sizes : List Nat) (t' : FetchState) : Prop where
  base_eq : t'.frame.base = t.frame.base
  supplied_eq : t'.frame.supplied = t.frame.supplied
  left_add_eq : t'.frame.left.toNat + sizes.sum = t.frame.left.toNat
  fetches_eq : t'.fetches = t.fetches ++ layout t.frame.base t.frame.left.toNat sizes

namespace FetchState.Took

variable {t t' t'' : FetchState} {sizes sizes' : List Nat}

theorem refl (t : FetchState) : t.Took [] t :=
  ⟨rfl, rfl, rfl, (List.append_nil _).symm⟩

theorem trans (h : t.Took sizes t') (h' : t'.Took sizes' t'') : t.Took (sizes ++ sizes') t'' where
  base_eq := h'.base_eq.trans h.base_eq
  supplied_eq := h'.supplied_eq.trans h.supplied_eq
  left_add_eq := by
    rw [List.sum_append, ← h.left_add_eq, ← h'.left_add_eq]
    omega
  fetches_eq := by
    have hleft : t.frame.left.toNat - sizes.sum = t'.frame.left.toNat :=
      Nat.sub_eq_of_eq_add h.left_add_eq.symm
    rw [h'.fetches_eq, h.fetches_eq, h.base_eq, layout_append, hleft, List.append_assoc]

end FetchState.Took

/-! ### Renderings with a record -/

/-- A rendering was refused because the next argument it asked for did not fit into what was left
of the frame. -/
def Exhausted (t : FetchState) (rest : List Nat) (e : Error Violation.Reason) : Prop :=
  ∃ needed, rest.head? = some needed ∧ t.frame.left.toNat < needed ∧
    e = .argument (.argumentsExhausted needed t.frame.left.toNat t.frame.supplied.toNat)

/-- The failures that are not for want of arguments. -/
inductive OtherFailure : Error Violation.Reason → Prop
  | truncated : OtherFailure .truncated
  | unsupported (c : UInt8) : OtherFailure (.unsupported c)
  | unterminatedText (a : UInt16) : OtherFailure (.argument (.unterminatedText a))
  | tooLong : OtherFailure .tooLong

/-- A rendering with a record and one without, from the same state, come to the same. Arguments of
the given sizes have been fetched, or those at their front if the rendering failed. -/
inductive Recorded {α : Type} (t : FetchState) (sizes : List Nat) :
    EStateM.Result (Error Violation.Reason) FetchState α →
    EStateM.Result (Error Violation.Reason) FormatState α → Prop
  | ok {a : α} {t' : FetchState} (htook : t.Took sizes t') :
      Recorded t sizes (.ok a t') (.ok a t'.toFormatState)
  | error {e : Error Violation.Reason} {t' : FetchState} (taken rest : List Nat)
      (hsizes : sizes = taken ++ rest) (htook : t.Took taken t')
      (hcause : Exhausted t' rest e ∨ OtherFailure e) :
      Recorded t sizes (.error e t') (.error e t'.toFormatState)

section Recorded

variable {α β : Type} {t : FetchState} {sizes sizes' : List Nat}
  {x' : Rendering Violation.Reason FetchState α} {x : Rendering Violation.Reason FormatState α}
  {f' : α → Rendering Violation.Reason FetchState β}
  {f : α → Rendering Violation.Reason FormatState β}

theorem recorded_pure (t : FetchState) (a : α) :
    Recorded t [] ((pure a : Rendering _ _ α).run t)
      ((pure a : Rendering _ _ α).run t.toFormatState) :=
  .ok (.refl t)

theorem recorded_throw {e : Error Violation.Reason} (he : OtherFailure e) (t : FetchState)
    (sizes : List Nat) :
    Recorded t sizes ((throw e : Rendering _ _ α).run t)
      ((throw e : Rendering _ _ α).run t.toFormatState) :=
  .error [] sizes (List.nil_append sizes).symm (.refl t) (.inr he)

theorem Recorded.bind (hx : Recorded t sizes (x'.run t) (x.run t.toFormatState))
    (hf : ∀ a t', x.run t.toFormatState = .ok a t'.toFormatState →
      Recorded t' sizes' ((f' a).run t') ((f a).run t'.toFormatState)) :
    Recorded t (sizes ++ sizes') ((x' >>= f').run t) ((x >>= f).run t.toFormatState) := by
  rw [EStateM.run_bind, EStateM.run_bind]
  generalize x'.run t = r' at hx
  generalize x.run t.toFormatState = r at hx hf
  cases hx with
  | error taken rest hsizes htook hcause =>
    -- what the first part did not get comes before all that the second would have asked for
    refine .error taken (rest ++ sizes') (by rw [hsizes, List.append_assoc]) htook
      (hcause.imp_left ?_)
    rintro ⟨needed, hhead, hleft, he⟩
    refine ⟨needed, ?_, hleft, he⟩
    rw [List.head?_append, hhead]
    rfl
  | @ok a t' htook =>
    have hrest := hf a t' rfl
    dsimp only
    generalize (f' a).run t' = r' at hrest
    generalize (f a).run t'.toFormatState = r at hrest
    cases hrest with
    | ok htook' => exact .ok (htook.trans htook')
    | error taken rest hsizes' htook' hcause =>
      exact .error (sizes ++ taken) rest (by rw [hsizes', List.append_assoc]) (htook.trans htook')
        hcause

theorem Recorded.bind_nil (hx : Recorded t sizes (x'.run t) (x.run t.toFormatState))
    (hf : ∀ a t', Recorded t' [] ((f' a).run t') ((f a).run t'.toFormatState)) :
    Recorded t sizes ((x' >>= f').run t) ((x >>= f).run t.toFormatState) := by
  have h := hx.bind fun a t' _ => hf a t'
  rw [List.append_nil] at h
  exact h

/-- What is made of the result takes no arguments. -/
theorem Recorded.bind_pure (hx : Recorded t sizes (x'.run t) (x.run t.toFormatState)) (g : α → β) :
    Recorded t sizes ((x' >>= fun a => pure (g a)).run t)
      ((x >>= fun a => pure (g a)).run t.toFormatState) :=
  hx.bind_nil fun a t' => recorded_pure t' (g a)

/-! ### Arguments -/

theorem recorded_fetchArgument (size : UInt8) (read : Memory → UInt16 → α)
    {next : VariadicFrame → Memory → Except Violation.Reason (α × VariadicFrame)}
    (hnext : ∀ frame m, next frame m = (frame.take size).map fun (a, frame) => (read m a, frame))
    (t : FetchState) :
    Recorded t [size.toNat] ((fetch (fetchArgument size read)).run t)
      ((fetch (takeArgument next)).run t.toFormatState) := by
  rw [run_fetch, run_fetch]
  unfold fetchArgument takeArgument EStateM.run
  dsimp only
  rw [hnext]
  -- with too little left neither run gets an argument, and else both move on by its size
  by_cases h : t.frame.left < size
  · rw [VariadicFrame.take_of_lt h]
    exact .error [] [size.toNat] rfl (.refl t) (.inl ⟨size.toNat, rfl, h, rfl⟩)
  · have hle := UInt8.not_lt.mp h
    rw [VariadicFrame.take_of_le hle]
    refine .ok ⟨rfl, rfl, ?_, rfl⟩
    show (t.frame.left - size).toNat + (size.toNat + 0) = t.frame.left.toNat
    rw [UInt8.toNat_sub_of_le _ _ hle]
    have := UInt8.le_iff_toNat_le.mp hle
    omega

theorem recorded_nextInt (t : FetchState) :
    Recorded t [2] ((fetch recordingSource.nextInt).run t)
      ((fetch frameSource.nextInt).run t.toFormatState) :=
  recorded_fetchArgument 2 Memory.readWord (fun _ _ => rfl) t

theorem recorded_nextLong (t : FetchState) :
    Recorded t [4] ((fetch recordingSource.nextLong).run t)
      ((fetch frameSource.nextLong).run t.toFormatState) :=
  recorded_fetchArgument 4 readLong (fun _ _ => rfl) t

/-- Only a text that has to end can be refused. -/
theorem textAt_eq_error {m : Memory} {a : UInt16} {most : Option Nat} {reason : Violation.Reason}
    (h : textAt m a most = .error reason) : reason = .unterminatedText a ∧ most = none := by
  unfold textAt at h
  cases most with
  | some n => cases h
  | none =>
    dsimp only at h
    cases htext : m.text? a textLimit with
    | some text =>
      rw [htext] at h
      cases h
    | none =>
      rw [htext] at h
      cases h
      exact ⟨rfl, rfl⟩

theorem run_text_recording (a : UInt16) (most : Option Nat) (t : FetchState) :
    (fetch (recordingSource.text a most)).run t =
      match textAt t.memory a most with
      | .ok text => .ok text t
      | .error reason => .error (.argument reason) t := by
  rw [run_fetch]
  unfold recordingSource EStateM.run
  dsimp only
  cases textAt t.memory a most with
  | ok text => rfl
  | error reason => rfl

theorem recorded_confined (least : Nat) (text : Unit → List UInt8) (t : FetchState) :
    Recorded t [] ((confined least text : Rendering _ _ _).run t)
      ((confined least text : Rendering _ _ _).run t.toFormatState) := by
  rw [confined_eq_ite, confined_eq_ite]
  split
  · exact recorded_throw .tooLong t []
  · exact recorded_pure t _

theorem recorded_text (a : UInt16) (most : Option Nat) (t : FetchState) :
    Recorded t [] ((fetch (recordingSource.text a most)).run t)
      ((fetch (frameSource.text a most)).run t.toFormatState) := by
  rw [run_text, run_text_recording]
  cases htext : textAt t.memory a most with
  | ok text => exact .ok (.refl t)
  | error reason =>
    obtain ⟨rfl, -⟩ := textAt_eq_error htext
    exact .error [] [] rfl (.refl t) (.inr (.unterminatedText a))

theorem recorded_nextSigned (length : Length) (t : FetchState) :
    Recorded t [length.argumentSize] ((nextSigned recordingSource length).run t)
      ((nextSigned frameSource length).run t.toFormatState) := by
  cases length with
  | char => exact (recorded_nextInt t).bind_pure _
  | int => exact (recorded_nextInt t).bind_pure _
  | long => exact (recorded_nextLong t).bind_pure _

theorem recorded_nextUnsigned (length : Length) (t : FetchState) :
    Recorded t [length.argumentSize] ((nextUnsigned recordingSource length).run t)
      ((nextUnsigned frameSource length).run t.toFormatState) := by
  cases length with
  | char => exact (recorded_nextInt t).bind_pure _
  | int => exact (recorded_nextInt t).bind_pure _
  | long => exact (recorded_nextLong t).bind_pure _

theorem recorded_nextText (precision : Option Nat) (t : FetchState) :
    Recorded t [2] ((nextText recordingSource precision).run t)
      ((nextText frameSource precision).run t.toFormatState) := by
  refine (recorded_nextInt t).bind_nil fun pointer t' => ?_
  by_cases hpointer : pointer = 0
  · rw [if_pos hpointer, if_pos hpointer]
    exact (recorded_pure t' _).bind_pure _
  · rw [if_neg hpointer, if_neg hpointer]
    exact (recorded_text pointer precision t').bind_pure _

theorem recorded_take (field : Field) (t : FetchState) :
    Recorded t field.sizes ((field.take recordingSource).run t)
      ((field.take frameSource).run t.toFormatState) := by
  cases field with
  | number n => exact recorded_pure t _
  | argument => exact (recorded_nextInt t).bind_pure _

theorem recorded_takePrecision (precision : Option Field) (t : FetchState) :
    Recorded t (precision.elim [] Field.sizes) ((takePrecision recordingSource precision).run t)
      ((takePrecision frameSource precision).run t.toFormatState) := by
  cases precision with
  | none => exact recorded_pure t _
  | some field => exact (recorded_take field t).bind_pure _

theorem recorded_style (d : Directive) (t : FetchState) :
    Recorded t (d.width.sizes ++ d.precision.elim [] Field.sizes)
      ((d.style recordingSource).run t) ((d.style frameSource).run t.toFormatState) := by
  rw [d.style_eq, d.style_eq]
  refine (recorded_take d.width t).bind fun width t' _ => ?_
  exact (recorded_takePrecision d.precision t').bind_pure _

/-! ### Formats -/

theorem recorded_render (d : Directive) (written : Nat) (t : FetchState) :
    Recorded t d.sizes ((d.render recordingSource written).run t)
      ((d.render frameSource written).run t.toFormatState) := by
  refine (recorded_style d t).bind fun style t' _ => ?_
  -- behind the style a directive fetches one argument at most
  cases hconversion : d.conversion with
  | percent => exact recorded_pure t' _
  | signed => exact (recorded_nextSigned d.length t').bind_nil fun _ => recorded_confined _ _
  | unsigned => exact (recorded_nextUnsigned d.length t').bind_nil fun _ => recorded_confined _ _
  | octal => exact (recorded_nextUnsigned d.length t').bind_nil fun _ => recorded_confined _ _
  | hex upper => exact (recorded_nextUnsigned d.length t').bind_nil fun _ => recorded_confined _ _
  | character => exact (recorded_nextInt t').bind_nil fun _ => recorded_confined _ _
  | text => exact (recorded_nextText style.precision t').bind_nil fun _ => recorded_confined _ _
  | pointer => exact (recorded_nextInt t').bind_nil fun _ => recorded_confined _ _
  | count =>
    refine (recorded_nextInt t').bind_nil fun target t'' => ?_
    exact .ok ⟨rfl, rfl, rfl, (List.append_nil _).symm⟩
  | unsupported c => exact recorded_throw (.unsupported c) t' _
  | missing => exact recorded_throw .truncated t' _

theorem recorded_renderPieces (written : Nat) (ps : List Piece) (t : FetchState) :
    Recorded t (ps.flatMap Piece.sizes) ((renderPieces recordingSource written ps).run t)
      ((renderPieces frameSource written ps).run t.toFormatState) := by
  induction ps generalizing written t with
  | nil => exact recorded_pure t _
  | cons p ps ih =>
    have hp : Recorded t p.sizes ((p.render recordingSource written).run t)
        ((p.render frameSource written).run t.toFormatState) := by
      cases p with
      | literal b => exact recorded_pure t _
      | directive d => exact recorded_render d written t
    rw [List.flatMap_cons]
    refine hp.bind fun text t' _ => ?_
    exact (ih (written + text.length) t').bind_pure _

/-- A record changes nothing in what is rendered, and what is recorded is what the format asks
for. -/
theorem recorded_format (format : List UInt8) (t : FetchState) :
    Recorded t (argumentSizes format) ((Printf.format recordingSource format).run t)
      ((Printf.format frameSource format).run t.toFormatState) :=
  recorded_renderPieces 0 (pieces format) t

end Recorded

end Call

end Bench65
