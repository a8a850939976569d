import Bench65.Proofs.Call.Fetches
import Bench65.Proofs.Memory.Text

/-!
# Texts that are shown

A routine looks for the end of a text within `textLimit` bytes (`textAt_none_eq_ok_iff`).

`text_conversion` lists what can come of `%s` (`TextOutcome`). Without a precision the text is shown
whole or the call is refused. With one it is shown up to the precision, whether it ends or not,
except that no more than `textLimit` bytes are ever shown: of a text that is longer and a precision
that allows more, the rest is lost (`TextOutcome.cutShort`). A field that is too wide for any buffer
is given up once the text has been found (`setInField`).
-/

namespace Bench65

namespace Call

open Printf

/-! ### What a routine reads -/

section TextAt

variable {m : Memory} {a : UInt16} {text : List UInt8}

theorem textAt_none_eq_ok_iff :
    textAt m a none = .ok text ↔ m.ShowsText a none text ∧ text.length < textLimit := by
  rw [← Memory.text?_eq_some_iff, textAt]
  cases m.text? a textLimit with
  | none => simp
  | some text' => simp

theorem textAt_none_eq_error_iff {reason : Violation.Reason} :
    textAt m a none = .error reason ↔
      (∀ i < textLimit, m.read (a + UInt16.ofNat i) ≠ 0) ∧ reason = .unterminatedText a := by
  rw [← Memory.text?_eq_none_iff, textAt]
  cases m.text? a textLimit with
  | none => simp [eq_comm]
  | some text' => simp

theorem textAt_some (m : Memory) (a : UInt16) (most : Nat) :
    ∃ text, textAt m a (some most) = .ok text ∧
      m.ShowsText a (some (min most textLimit)) text :=
  ⟨_, rfl, m.showsText_takeWhile a (min most textLimit)⟩

/-- No more than the limit is read. -/
theorem length_of_textAt {most : Option Nat} (h : textAt m a most = .ok text) :
    text.length ≤ textLimit := by
  cases most with
  | none => exact Nat.le_of_lt (textAt_none_eq_ok_iff.mp h).2
  | some most =>
    obtain ⟨text', htext, hshows⟩ := textAt_some m a most
    rw [htext] at h
    cases h
    exact Nat.le_trans (hshows.length_le _ rfl) (Nat.min_le_right most textLimit)

end TextAt

/-! ### Text conversions -/

/-- What a text conversion takes from the arguments: its width, its precision and the pointer. -/
def textArguments (d : Directive) :
    Rendering Violation.Reason FormatState (Int × Option Int × UInt16) := do
  let width ← d.width.take frameSource
  let precision ← takePrecision frameSource d.precision
  let pointer ← fetch frameSource.nextInt
  pure (width, precision, pointer)

/-- The number of bytes a precision allows. A negative one allows any number. -/
def bound (precision : Option Int) : Option Nat :=
  precision.bind fun p => if p < 0 then none else some p.toNat

/-- A text in its field: a minus flag or a negative width puts the blanks behind it. -/
def inField (d : Directive) (width : Int) (text : List UInt8) : List UInt8 :=
  if d.flags.left || width < 0 then text.rightpad width.natAbs (Ascii.byte ' ')
  else text.leftpad width.natAbs (Ascii.byte ' ')

/-- A field is as wide as asked for, or as the text. -/
theorem length_inField (d : Directive) (width : Int) (text : List UInt8) :
    (inField d width text).length = max width.natAbs text.length := by
  unfold inField
  split
  · rw [List.length_rightpad]
  · rw [List.length_leftpad]

/-- What comes of a text that has been found: it is set in its field, unless that is too wide for
any buffer. -/
def setInField (d : Directive) (width : Int) (text : List UInt8) (s : FormatState) :
    EStateM.Result (Error Violation.Reason) FormatState (List UInt8) :=
  if width.natAbs ≤ capacity then .ok (inField d width text) s else .error .tooLong s

theorem run_confined_inField (d : Directive) (width : Int) {text : List UInt8}
    (h : text.length ≤ capacity) (s : FormatState) :
    (confined width.natAbs fun _ => inField d width text : Rendering _ _ _).run s =
      setInField d width text s := by
  have hlength := length_inField d width text
  rw [confined_eq (by omega), hlength, setInField]
  by_cases hwidth : width.natAbs ≤ capacity
  · rw [if_pos (Nat.max_le.mpr ⟨hwidth, h⟩), if_pos hwidth]
    rfl
  · rw [if_neg (fun hle => hwidth (Nat.max_le.mp hle).1), if_neg hwidth]
    rfl

/-- What comes of a text conversion. -/
inductive TextOutcome (d : Directive) (s : FormatState) :
    EStateM.Result (Error Violation.Reason) FormatState (List UInt8) → Prop
  | refused {e : Error Violation.Reason} {s' : FormatState}
      (hargs : (textArguments d).run s = .error e s') : TextOutcome d s (.error e s')
  | null {width : Int} {precision : Option Int} {s' : FormatState}
      (hargs : (textArguments d).run s = .ok (width, precision, 0) s') :
      TextOutcome d s (setInField d width
        ((bound precision).elim (Ascii.bytes "(null)") (Ascii.bytes "(null)").take) s')
  | whole {width : Int} {precision : Option Int} {pointer : UInt16} {s' : FormatState}
      {text : List UInt8} (hargs : (textArguments d).run s = .ok (width, precision, pointer) s')
      (hpointer : pointer ≠ 0) (hbound : bound precision = none)
      (htext : s'.memory.ShowsText pointer none text) (hlength : text.length < textLimit) :
      TextOutcome d s (setInField d width text s')
  | unterminated {width : Int} {precision : Option Int} {pointer : UInt16} {s' : FormatState}
      (hargs : (textArguments d).run s = .ok (width, precision, pointer) s')
      (hpointer : pointer ≠ 0) (hbound : bound precision = none)
      (hread : ∀ i < textLimit, s'.memory.read (pointer + UInt16.ofNat i) ≠ 0) :
      TextOutcome d s (.error (.argument (.unterminatedText pointer)) s')
  | cut {width : Int} {precision : Option Int} {pointer : UInt16} {s' : FormatState}
      {text : List UInt8} {most : Nat}
      (hargs : (textArguments d).run s = .ok (width, precision, pointer) s')
      (hpointer : pointer ≠ 0) (hbound : bound precision = some most)
      (hends : most ≤ textLimit ∨
        ∃ i ≤ textLimit, s'.memory.read (pointer + UInt16.ofNat i) = 0)
      (htext : s'.memory.ShowsText pointer (some most) text) :
      TextOutcome d s (setInField d width text s')
  | cutShort {width : Int} {precision : Option Int} {pointer : UInt16} {s' : FormatState}
      {text : List UInt8} {most : Nat}
      (hargs : (textArguments d).run s = .ok (width, precision, pointer) s')
      (hpointer : pointer ≠ 0) (hbound : bound precision = some most)
      (hmost : textLimit < most)
      (hread : ∀ i ≤ textLimit, s'.memory.read (pointer + UInt16.ofNat i) ≠ 0)
      (htext : s'.memory.ShowsText pointer (some textLimit) text) :
      TextOutcome d s (setInField d width text s')

section Render

variable {d : Directive} {written : Nat} {s s' : FormatState} {width : Int}
  {precision : Option Int} {pointer : UInt16} {text : List UInt8}

/-- The part of a text conversion behind its arguments. -/
def showText (d : Directive) (width : Int) (precision : Option Int) (pointer : UInt16) :
    Rendering Violation.Reason FormatState (List UInt8) := do
  let text ← if pointer = 0 then pure (Ascii.bytes "(null)")
    else fetch (frameSource.text pointer (bound precision))
  confined width.natAbs fun _ => inField d width ((bound precision).elim text text.take)

theorem render_text (hd : d.conversion = .text) (written : Nat) :
    d.render frameSource written = (do
      let (width, precision, pointer) ← textArguments d
      showText d width precision pointer) := by
  unfold Directive.render
  rw [d.style_eq, hd]
  unfold nextText textArguments showText
  simp only [bind_assoc, pure_bind]
  refine bind_congr fun width => bind_congr fun precision => bind_congr fun pointer => ?_
  by_cases hpointer : pointer = 0
  · simp only [if_pos hpointer, pure_bind]
    rfl
  · simp only [if_neg hpointer, bind_assoc, pure_bind]
    rfl

theorem length_elim_take_le (most : Option Nat) (text : List UInt8) :
    (most.elim text text.take).length ≤ text.length := by
  cases most with
  | none => exact Nat.le_refl _
  | some most => exact List.length_take_le' most text

theorem run_showText_null (d : Directive) (width : Int) (precision : Option Int)
    (s : FormatState) :
    (showText d width precision 0).run s = setInField d width
      ((bound precision).elim (Ascii.bytes "(null)") (Ascii.bytes "(null)").take) s := by
  have hlength := length_elim_take_le (bound precision) (Ascii.bytes "(null)")
  exact run_confined_inField d width (Nat.le_trans hlength (by decide)) s

theorem run_showText_of_ok (hpointer : pointer ≠ 0)
    (h : textAt s.memory pointer (bound precision) = .ok text) :
    (showText d width precision pointer).run s =
      setInField d width ((bound precision).elim text text.take) s := by
  have htext := run_text pointer (bound precision) s
  rw [h] at htext
  have hlength := Nat.le_trans (length_elim_take_le (bound precision) text) (length_of_textAt h)
  unfold showText
  simp only [if_neg hpointer]
  rw [run_bind_of_ok htext]
  exact run_confined_inField d width (Nat.le_trans hlength (by decide)) s

theorem run_showText_of_error {reason : Violation.Reason} (hpointer : pointer ≠ 0)
    (h : textAt s.memory pointer (bound precision) = .error reason) :
    (showText d width precision pointer).run s = .error (.argument reason) s := by
  have htext := run_text pointer (bound precision) s
  rw [h] at htext
  unfold showText
  simp only [if_neg hpointer]
  exact run_bind_of_error htext

/-- What a precision allows is shown as far as it has been read. -/
theorem run_showText_of_shows {most : Nat} (hpointer : pointer ≠ 0)
    (hbound : bound precision = some most)
    (htext : s.memory.ShowsText pointer (some (min most textLimit)) text) :
    (showText d width precision pointer).run s = setInField d width text s := by
  obtain ⟨text', htextAt, htext'⟩ := textAt_some s.memory pointer most
  obtain rfl := htext'.unique htext
  have htake : text'.take most = text' :=
    List.take_of_length_le (Nat.le_trans (htext.length_le _ rfl) (Nat.min_le_left _ _))
  rw [run_showText_of_ok hpointer (by rw [hbound, htextAt]), hbound, Option.elim_some, htake]

/-- There is an outcome. -/
theorem textOutcome_run (hd : d.conversion = .text) (written : Nat) (s : FormatState) :
    TextOutcome d s ((d.render frameSource written).run s) := by
  rw [render_text hd]
  cases hargs : (textArguments d).run s with
  | error e s' =>
    rw [run_bind_of_error hargs]
    exact .refused hargs
  | ok taken s' =>
    obtain ⟨width, precision, pointer⟩ := taken
    rw [run_bind_of_ok hargs]
    dsimp only
    by_cases hpointer : pointer = 0
    · obtain rfl := hpointer
      rw [run_showText_null]
      exact .null hargs
    cases hbound : bound precision with
    | none =>
      cases htext : textAt s'.memory pointer none with
      | ok text =>
        obtain ⟨hshows, hlength⟩ := textAt_none_eq_ok_iff.mp htext
        rw [run_showText_of_ok hpointer (by rw [hbound, htext]), hbound]
        exact .whole hargs hpointer hbound hshows hlength
      | error reason =>
        obtain ⟨hread, rfl⟩ := textAt_none_eq_error_iff.mp htext
        rw [run_showText_of_error hpointer (by rw [hbound, htext])]
        exact .unterminated hargs hpointer hbound hread
    | some most =>
      -- no precision is refused; whether text is lost depends on where it ends
      obtain ⟨text, -, hshows⟩ := textAt_some s'.memory pointer most
      rw [run_showText_of_shows hpointer hbound hshows]
      by_cases hends : most ≤ textLimit ∨
          ∃ i ≤ textLimit, s'.memory.read (pointer + UInt16.ofNat i) = 0
      · exact .cut hargs hpointer hbound hends (hshows.showsText_iff.mpr hends)
      · rw [not_or] at hends
        obtain ⟨hlt, hread⟩ := hends
        rw [Nat.min_eq_right (Nat.le_of_not_le hlt)] at hshows
        exact .cutShort hargs hpointer hbound (Nat.lt_of_not_le hlt)
          (fun i hi hzero => hread ⟨i, hi, hzero⟩) hshows

/-- There is only one. -/
theorem TextOutcome.run_eq {r : EStateM.Result (Error Violation.Reason) FormatState (List UInt8)}
    (h : TextOutcome d s r) (hd : d.conversion = .text) (written : Nat) :
    (d.render frameSource written).run s = r := by
  rw [render_text hd]
  cases h with
  | refused hargs => rw [run_bind_of_error hargs]
  | null hargs =>
    rw [run_bind_of_ok hargs]
    exact run_showText_null _ _ _ _
  | whole hargs hpointer hbound htext hlength =>
    have htextAt := textAt_none_eq_ok_iff.mpr ⟨htext, hlength⟩
    rw [run_bind_of_ok hargs]
    dsimp only
    rw [run_showText_of_ok hpointer (by rw [hbound, htextAt]), hbound]
    rfl
  | unterminated hargs hpointer hbound hread =>
    have htextAt := textAt_none_eq_error_iff.mpr ⟨hread, rfl⟩
    rw [run_bind_of_ok hargs]
    exact run_showText_of_error hpointer (by rw [hbound, htextAt])
  | @cut width precision pointer s' text most hargs hpointer hbound hends htext =>
    -- the text that is read is the whole one, because that one ends in time
    rw [run_bind_of_ok hargs]
    have hshows := s'.memory.showsText_takeWhile pointer (min most textLimit)
    rw [(hshows.showsText_iff.mpr hends).unique htext] at hshows
    exact run_showText_of_shows hpointer hbound hshows
  | cutShort hargs hpointer hbound hmost hread htext =>
    rw [run_bind_of_ok hargs]
    exact run_showText_of_shows hpointer hbound (by rwa [Nat.min_eq_right (Nat.le_of_lt hmost)])

end Render

/-- **Text conversions.** What comes of one is one of the outcomes, and nothing else. In all but
`TextOutcome.cutShort` the text is shown as C has it, unless the call is refused or the field too
wide. -/
theorem text_conversion {d : Directive} (hd : d.conversion = .text) (written : Nat)
    (s : FormatState) (r : EStateM.Result (Error Violation.Reason) FormatState (List UInt8)) :
    (d.render frameSource written).run s = r ↔ TextOutcome d s r := by
  constructor
  · rintro rfl
    exact textOutcome_run hd written s
  · intro h
    exact h.run_eq hd written

/-- A frame with one argument, in a memory full of the letter `A`. The text it leads to never
ends. -/
def endless : FormatState :=
  ⟨⟨0xC000, 2, 2⟩, Memory.filled 65⟩

/-- `%-6.*s` with the precision written out. -/
def cutTo (precision : Nat) : Directive :=
  ⟨{ Flags.none with left := true }, .number 6, some (.number precision), .int, .text⟩

theorem read_endless (a : UInt16) : endless.memory.read a = 65 :=
  Memory.read_filled 65 a

theorem showsText_endless (a : UInt16) (n : Nat) :
    endless.memory.ShowsText a (some n) (List.replicate n 65) := by
  have hbytes : endless.memory.readBytes a n = List.replicate n 65 := by
    simp [Memory.readBytes, read_endless]
  refine ⟨Memory.holds_iff_readBytes.mpr ?_, ?_, fun k hk => ?_, .inl ?_⟩
  · rw [List.length_replicate, hbytes]
  · simp
  · exact Nat.le_of_eq (List.length_replicate.trans (Option.some.inj hk))
  · rw [List.length_replicate]

theorem textArguments_endless (precision : Nat) :
    (textArguments (cutTo precision)).run endless =
      .ok (6, some (precision : Int), 0x4141) { endless with frame := ⟨0xC000, 2, 0⟩ } := by
  have hword : endless.frame.nextWord endless.memory = .ok (0x4141, ⟨0xC000, 2, 0⟩) := by
    show Except.ok (Memory.readWord endless.memory 0xC000, _) = _
    rw [Memory.readWord, read_endless, read_endless]
    rfl
  show (fetch frameSource.nextInt >>= fun pointer =>
    (pure ((6 : Int), some (precision : Int), pointer) : Rendering _ _ _)).run endless = _
  rw [run_bind_of_ok (run_nextInt hword)]
  rfl

/-- A precision within the limit is kept to, with the blanks behind the text. -/
theorem text_conversion_letters :
    ((cutTo 5).render frameSource 0).run endless =
      .ok (Ascii.bytes "AAAAA ") { endless with frame := ⟨0xC000, 2, 0⟩ } :=
  (text_conversion rfl 0 endless _).mpr <|
    .cut (textArguments_endless 5) (by decide) rfl (.inl (by decide)) (showsText_endless 0x4141 5)

/-- Text that does not end is cut to the limit and not to a precision above it. -/
theorem cutTo_loses_text :
    ∃ text s', ((cutTo 5000).render frameSource 0).run endless = .ok text s' ∧
      ¬ ∃ shown, endless.memory.ShowsText 0x4141 (some 5000) shown ∧
        text = inField (cutTo 5000) 6 shown := by
  have hrun : ((cutTo 5000).render frameSource 0).run endless =
      .ok (inField (cutTo 5000) 6 (List.replicate textLimit 65))
        { endless with frame := ⟨0xC000, 2, 0⟩ } := by
    refine TextOutcome.run_eq (.cutShort (textArguments_endless 5000) (by decide) rfl (by decide)
      (fun i _ => ?_) (showsText_endless 0x4141 textLimit)) rfl 0
    rw [read_endless]
    decide
  refine ⟨_, _, hrun, ?_⟩
  rintro ⟨shown, hshown, heq⟩
  obtain rfl := hshown.unique (showsText_endless 0x4141 5000)
  have hlength := congrArg List.length heq
  rw [length_inField, length_inField, List.length_replicate, List.length_replicate] at hlength
  exact absurd hlength (by decide)

end Call

end Bench65
