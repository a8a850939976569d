import Bench65.Proofs.Printf.Rendering

/-!
# Formats one behind the other

* `format_append`: rendering is compositional. A format that is rendered goes on, when another one
  is put behind it, with the rendering of the other one from the state it has reached, and one that
  cannot be rendered fails in the same way whatever is put behind it, unless it ended inside a
  directive.

The reader of a directive looks ahead by a byte or two and runs on over flags and digits, so a
text put behind a format could be read as a part of its last directive. Every reader that stops
before the end of a text reads the same when the text goes on (`Settles`), and a directive that has
its conversion has stopped (`readDirective_append`). A directive that has none may turn out to be
another one, but takes the same arguments for the stars it has (`Directive.Continues`).
-/

namespace Bench65.Printf

/-! ### Readers that stop before the end -/

/-- Where the reader stops before the end of a text, nothing put behind the text changes what it
reads. -/
def Settles {α : Type} (read : List UInt8 → α × List UInt8) : Prop :=
  ∀ s t, (read s).2 ≠ [] → read (s ++ t) = ((read s).1, (read s).2 ++ t)

theorem settles_readFlags (f : Flags) : Settles (readFlags f) := by
  intro s t
  induction s generalizing f with
  | nil =>
    intro h
    exact absurd rfl h
  | cons b rest ih =>
    intro h
    rw [List.cons_append]
    unfold readFlags at h ⊢
    cases hb : f.add? b with
    | none => rfl
    | some f' =>
      rw [hb] at h
      exact ih f' h

theorem settles_readNumber (n : Nat) : Settles (readNumber n) := by
  intro s t
  induction s generalizing n with
  | nil =>
    intro h
    exact absurd rfl h
  | cons b rest ih =>
    intro h
    rw [List.cons_append]
    unfold readNumber at h ⊢
    cases hb : Ascii.digitValue? b with
    | none => rfl
    | some d =>
      rw [hb] at h
      exact ih _ h

theorem readField_star (rest : List UInt8) :
    readField (Ascii.byte '*' :: rest) = (.argument, rest) := by
  rw [readField, if_pos rfl]

theorem readField_of_ne {b : UInt8} (hb : b ≠ Ascii.byte '*') (rest : List UInt8) :
    readField (b :: rest) =
      (.number (readNumber 0 (b :: rest)).1, (readNumber 0 (b :: rest)).2) := by
  rw [readField, if_neg hb]

theorem settles_readField : Settles readField := by
  intro s t h
  cases s with
  | nil => exact absurd rfl h
  | cons b rest =>
    by_cases hb : b = Ascii.byte '*'
    · rw [hb, List.cons_append, readField_star, readField_star]
    · rw [readField_of_ne hb] at h
      have hnumber := settles_readNumber 0 (b :: rest) t h
      rw [List.cons_append] at hnumber ⊢
      rw [readField_of_ne hb, readField_of_ne hb, hnumber]

/-- A star is a field by itself: it need not be followed by anything. -/
theorem readField_append_of_argument {s : List UInt8} (h : (readField s).1 = .argument)
    (t : List UInt8) : readField (s ++ t) = ((readField s).1, (readField s).2 ++ t) := by
  cases s with
  | nil => cases h
  | cons b rest =>
    by_cases hb : b = Ascii.byte '*'
    · rw [hb, List.cons_append, readField_star, readField_star]
    · rw [readField_of_ne hb] at h
      cases h

theorem readPrecision_point (rest : List UInt8) :
    readPrecision (Ascii.byte '.' :: rest) = (some (readField rest).1, (readField rest).2) := by
  rw [readPrecision, if_pos rfl]

theorem readPrecision_of_ne {b : UInt8} (hb : b ≠ Ascii.byte '.') (rest : List UInt8) :
    readPrecision (b :: rest) = (none, b :: rest) := by
  rw [readPrecision, if_neg hb]

theorem settles_readPrecision : Settles readPrecision := by
  intro s t h
  cases s with
  | nil => exact absurd rfl h
  | cons b rest =>
    by_cases hb : b = Ascii.byte '.'
    · rw [hb, readPrecision_point] at h
      have hfield := settles_readField rest t h
      rw [hb, List.cons_append, readPrecision_point, readPrecision_point, hfield]
    · rw [List.cons_append, readPrecision_of_ne hb, readPrecision_of_ne hb]
      rfl

theorem readPrecision_append_of_argument {s : List UInt8}
    (h : (readPrecision s).1 = some .argument) (t : List UInt8) :
    readPrecision (s ++ t) = ((readPrecision s).1, (readPrecision s).2 ++ t) := by
  cases s with
  | nil => cases h
  | cons b rest =>
    by_cases hb : b = Ascii.byte '.'
    · rw [hb, readPrecision_point] at h
      have hfield := readField_append_of_argument (Option.some.inj h) t
      rw [hb, List.cons_append, readPrecision_point, readPrecision_point, hfield]
    · rw [readPrecision_of_ne hb] at h
      cases h

theorem settles_readLength : Settles readLength := by
  intro s t h
  cases s with
  | nil => exact absurd rfl h
  | cons b rest =>
    rw [List.cons_append]
    unfold readLength at h ⊢
    dsimp only at h ⊢
    split at h
    · -- after one `h` the next byte has to be there
      cases rest with
      | nil => exact absurd rfl h
      | cons c rest' =>
        dsimp only [List.cons_append]
        split
        · rfl
        · rfl
    all_goals rfl

/-! ### Directives -/

/-- A directive, read part by part. -/
theorem readDirective_eq (s : List UInt8) :
    readDirective s =
      let flags := readFlags .none s
      let width := readField flags.2
      let precision := readPrecision width.2
      let length := readLength precision.2
      let conversion := readConversion length.2
      (⟨flags.1, width.1, precision.1, length.1, conversion.1⟩, conversion.2) :=
  rfl

theorem ne_nil_of_length_le {s t : List UInt8} (hle : t.length ≤ s.length) (ht : t ≠ []) :
    s ≠ [] :=
  List.ne_nil_of_length_pos (Nat.lt_of_lt_of_le (List.length_pos_iff.mpr ht) hle)

theorem ne_nil_of_conversion_ne {s : List UInt8} (h : (readConversion s).1 ≠ .missing) :
    s ≠ [] := by
  rintro rfl
  exact h rfl

theorem readConversion_append {s : List UInt8} (h : s ≠ []) (t : List UInt8) :
    readConversion (s ++ t) = ((readConversion s).1, (readConversion s).2 ++ t) := by
  cases s with
  | nil => exact absurd rfl h
  | cons b rest => rfl

theorem readConversion_of_missing {s : List UInt8} (h : (readConversion s).1 = .missing) :
    (readConversion s).2 = [] := by
  cases s with
  | nil => rfl
  | cons b rest =>
    -- no byte stands for a missing conversion
    have hbyte : Conversion.ofByte b ≠ .missing := by
      unfold Conversion.ofByte
      split
      all_goals exact nofun
    exact absurd h hbyte

/-- A directive that has its conversion is read the same whatever comes behind it. -/
theorem readDirective_append {s : List UInt8} (h : (readDirective s).1.conversion ≠ .missing)
    (t : List UInt8) :
    readDirective (s ++ t) = ((readDirective s).1, (readDirective s).2 ++ t) := by
  rw [readDirective_eq] at h ⊢
  rw [readDirective_eq]
  dsimp only at h ⊢
  -- a directive with a conversion had bytes left behind each of its parts, so each part is settled
  have hlength := ne_nil_of_conversion_ne h
  have hprecision := ne_nil_of_length_le (length_readLength _) hlength
  have hwidth := ne_nil_of_length_le (length_readPrecision _) hprecision
  have hflags := ne_nil_of_length_le (length_readField _) hwidth
  rw [settles_readFlags _ _ t hflags]
  dsimp only
  rw [settles_readField _ t hwidth]
  dsimp only
  rw [settles_readPrecision _ t hprecision]
  dsimp only
  rw [settles_readLength _ t hlength]
  dsimp only
  rw [readConversion_append hlength]

/-- The second directive takes arguments for the same stars as the first, as far as the first has
them. -/
structure Directive.Continues (d' d : Directive) : Prop where
  width_eq : d.width = .argument → d'.width = .argument
  precision_eq : d.precision = some .argument → d'.width = d.width ∧ d'.precision = d.precision

/-- A directive that the end of a text cuts short has read its stars. -/
theorem readDirective_continues (s t : List UInt8) :
    (readDirective (s ++ t)).1.Continues (readDirective s).1 := by
  rw [readDirective_eq, readDirective_eq]
  dsimp only
  constructor
  -- a star is seen only if there was a byte behind the part before it
  · intro hstar
    have hflags : (readFlags .none s).2 ≠ [] := by
      intro hnil
      rw [hnil] at hstar
      cases hstar
    rw [settles_readFlags _ _ t hflags]
    dsimp only
    rw [readField_append_of_argument hstar]
    exact hstar
  · intro hstar
    have hwidth : (readField (readFlags .none s).2).2 ≠ [] := by
      intro hnil
      rw [hnil] at hstar
      cases hstar
    have hflags := ne_nil_of_length_le (length_readField _) hwidth
    rw [settles_readFlags _ _ t hflags]
    dsimp only
    rw [settles_readField _ t hwidth]
    dsimp only
    rw [readPrecision_append_of_argument hstar]
    exact ⟨rfl, rfl⟩

/-! ### Pieces -/

/-- What becomes of the pieces of a format when another one is put behind it: the pieces of the
other one follow, or the last directive, which had no conversion, goes on. -/
inductive PiecesOfAppend (f g : List UInt8) : Prop
  | followed (happend : pieces (f ++ g) = pieces f ++ pieces g)
  | continued (before after : List Piece) (d d' : Directive)
      (hpieces : pieces f = before ++ [.directive d]) (hmissing : d.conversion = .missing)
      (happend : pieces (f ++ g) = before ++ .directive d' :: after) (hcontinues : d'.Continues d)

theorem pieces_percent (rest : List UInt8) :
    pieces (Ascii.byte '%' :: rest) =
      .directive (readDirective rest).1 :: pieces (readDirective rest).2 := by
  rw [pieces, if_pos rfl]

theorem pieces_of_ne {b : UInt8} (hb : b ≠ Ascii.byte '%') (rest : List UInt8) :
    pieces (b :: rest) = .literal b :: pieces rest := by
  rw [pieces, if_neg hb]

theorem PiecesOfAppend.cons {f f' g : List UInt8} {p : Piece} (h : PiecesOfAppend f g)
    (hf : pieces f' = p :: pieces f) (happend' : pieces (f' ++ g) = p :: pieces (f ++ g)) :
    PiecesOfAppend f' g := by
  cases h with
  | followed happend => exact .followed (by rw [happend', happend, hf, List.cons_append])
  | continued before after d d' hpieces hmissing happend hcontinues =>
    refine .continued (p :: before) after d d' ?_ hmissing ?_ hcontinues
    · rw [hf, hpieces, List.cons_append]
    · rw [happend', happend, List.cons_append]

theorem pieces_append (f g : List UInt8) : PiecesOfAppend f g := by
  induction f using pieces.induct with
  | case1 => exact .followed (by rw [pieces, List.nil_append, List.nil_append])
  | case2 rest _ ih =>
    by_cases hmissing : (readDirective rest).1.conversion = .missing
    · have hend : (readDirective rest).2 = [] := readConversion_of_missing hmissing
      refine .continued [] (pieces (readDirective (rest ++ g)).2) _ _ ?_ hmissing ?_
        (readDirective_continues rest g)
      · rw [pieces_percent, hend, pieces, List.nil_append]
      · rw [List.cons_append, pieces_percent, List.nil_append]
    · refine ih.cons (pieces_percent rest) ?_
      rw [List.cons_append, pieces_percent, readDirective_append hmissing]
  | case3 b rest hb ih =>
    refine ih.cons (pieces_of_ne hb rest) ?_
    rw [List.cons_append, pieces_of_ne hb]

/-! ### Rendering -/

section Rendering

variable {ε σ : Type} (source : Source ε σ)

/-- Pieces are rendered like two rows of them, the second coming behind the text of the first. -/
theorem renderPieces_append (written : Nat) (ps qs : List Piece) :
    renderPieces source written (ps ++ qs) = (do
      let text ← renderPieces source written ps
      let rest ← renderPieces source (written + text.length) qs
      pure (text ++ rest)) := by
  induction ps generalizing written with
  | nil => simp [renderPieces]
  | cons p ps ih =>
    simp only [List.cons_append, renderPieces, ih, bind_assoc, pure_bind, List.append_assoc,
      List.length_append, Nat.add_assoc]

theorem render_written {d : Directive} (h : d.conversion ≠ .count) (written written' : Nat) :
    d.render source written = d.render source written' := by
  unfold Directive.render
  cases hconversion : d.conversion with
  | count => exact absurd hconversion h
  | _ => rfl

/-- Only `%n` shows how much has been written before. -/
theorem renderPieces_written {ps : List Piece}
    (h : ∀ d, Piece.directive d ∈ ps → d.conversion ≠ .count) (written written' : Nat) :
    renderPieces source written ps = renderPieces source written' ps := by
  induction ps generalizing written written' with
  | nil => rfl
  | cons p ps ih =>
    have hps := ih fun d hd => h d (List.mem_cons_of_mem _ hd)
    have hp : p.render source written = p.render source written' := by
      cases p with
      | literal b => rfl
      | directive d => exact render_written source (h d List.mem_cons_self) written written'
    rw [renderPieces, renderPieces, hp]
    congr 1
    funext text
    rw [hps]

variable {source} {s s' : σ} {e : Error ε}

/-- Only a star can fail. -/
theorem Field.eq_argument_of_take {field : Field}
    (h : (field.take source).run s = .error e s') : field = .argument := by
  cases field with
  | number n => cases h
  | argument => rfl

theorem eq_argument_of_takePrecision {precision : Option Field}
    (h : (takePrecision source precision).run s = .error e s') : precision = some .argument := by
  cases precision with
  | none => cases h
  | some field =>
    rcases run_bind_eq_error h with hfield | ⟨p, s₁, -, hpure⟩
    · rw [Field.eq_argument_of_take hfield]
    · cases hpure

/-- A star whose argument cannot be had fails alike in a directive that goes on. -/
theorem Directive.Continues.style_error {d d' : Directive} (h : d'.Continues d)
    (hstyle : (d.style source).run s = .error e s') : (d'.style source).run s = .error e s' := by
  rw [Directive.style_eq] at hstyle ⊢
  rcases run_bind_eq_error hstyle with hwidth | ⟨width, s₁, hwidth, hrest⟩
  · have hstar := Field.eq_argument_of_take hwidth
    rw [h.width_eq hstar, ← hstar]
    exact run_bind_of_error hwidth
  rcases run_bind_eq_error hrest with hprecision | ⟨precision, s₂, -, hpure⟩
  · obtain ⟨hsame, hsame'⟩ := h.precision_eq (eq_argument_of_takePrecision hprecision)
    rw [hsame, hsame', run_bind_of_ok hwidth]
    exact run_bind_of_error hprecision
  · cases hpure

theorem style_error_of_missing {d : Directive} (h : d.conversion = .missing) {written : Nat}
    (hrender : (d.render source written).run s = .error e s') (he : e ≠ .truncated) :
    (d.style source).run s = .error e s' := by
  unfold Directive.render at hrender
  rcases run_bind_eq_error hrender with hstyle | ⟨style, s₁, -, hthrow⟩
  · exact hstyle
  · rw [h] at hthrow
    cases hthrow
    exact absurd rfl he

theorem render_missing_ne_ok {d : Directive} (h : d.conversion = .missing) {written : Nat}
    {text : List UInt8} : (d.render source written).run s ≠ .ok text s' := by
  intro hrender
  unfold Directive.render at hrender
  obtain ⟨style, s₁, -, hthrow⟩ := exists_of_run_bind_eq_ok hrender
  rw [h] at hthrow
  cases hthrow

/-! ### Formats -/

/-- How the rendering of a format goes on when another format is put behind it. -/
structure RendersAppend (source : Source ε σ) (f g : List UInt8) (s : σ) : Prop where
  /-- The second format is rendered from the state that the first has left. A `%n` in it would see
  the bytes of the first. -/
  of_ok : ∀ text s', (format source f).run s = .ok text s' →
    (∀ d, Piece.directive d ∈ pieces g → d.conversion ≠ .count) →
    (format source (f ++ g)).run s = ((text ++ ·) <$> format source g).run s'
  /-- Nothing behind a failure matters, unless the first format ended inside a directive. -/
  of_error : ∀ e s', (format source f).run s = .error e s' → e ≠ .truncated →
    (format source (f ++ g)).run s = .error e s'

theorem renderPieces_concat_ok {written : Nat} {ps : List Piece} {d : Directive}
    {text : List UInt8}
    (h : (renderPieces source written (ps ++ [.directive d])).run s = .ok text s') :
    d.conversion ≠ .missing := by
  intro hmissing
  rw [renderPieces_append] at h
  obtain ⟨first, s₁, -, h⟩ := exists_of_run_bind_eq_ok h
  obtain ⟨last, s₂, h, -⟩ := exists_of_run_bind_eq_ok h
  obtain ⟨rendered, s₃, h, -⟩ := exists_of_run_bind_eq_ok h
  exact render_missing_ne_ok hmissing h

/-- **Formatting is compositional.** -/
theorem format_append (source : Source ε σ) (f g : List UInt8) (s : σ) :
    RendersAppend source f g s where
  of_ok := by
    intro text s' hf hcount
    unfold format at hf ⊢
    cases pieces_append f g with
    | followed happend =>
      rw [happend, renderPieces_append, run_bind_of_ok hf,
        renderPieces_written source hcount _ 0]
      rfl
    | continued before after d d' hpieces hmissing happend hcontinues =>
      rw [hpieces] at hf
      exact absurd hmissing (renderPieces_concat_ok hf)
  of_error := by
    intro e s' hf he
    unfold format at hf ⊢
    cases pieces_append f g with
    | followed happend =>
      rw [happend, renderPieces_append]
      exact run_bind_of_error hf
    | continued before after d d' hpieces hmissing happend hcontinues =>
      rw [hpieces, renderPieces_append] at hf
      rw [happend, renderPieces_append]
      rcases run_bind_eq_error hf with hbefore | ⟨first, s₁, hbefore, hlast⟩
      · exact run_bind_of_error hbefore
      rw [renderPieces_singleton] at hlast
      rcases run_bind_eq_error hlast with hrender | ⟨last, s₂, -, hpure⟩
      · -- having no conversion, the last directive can only have failed in a star
        have hstyle := style_error_of_missing hmissing hrender he
        rw [run_bind_of_ok hbefore]
        refine run_bind_of_error (run_bind_of_error ?_)
        exact run_bind_of_error (hcontinues.style_error hstyle)
      · cases hpure

end Rendering

/-- Arguments from a list of words, without texts. -/
def wordSource : Source Unit (List UInt16) where
  nextInt
    | w :: rest => .ok w rest
    | [] => .error () []
  nextLong
    | low :: high :: rest => .ok (low.toUInt32 + 0x10000 * high.toUInt32) rest
    | rest => .error () rest
  text _ _ := throw ()
  store _ _ _ rest := rest

/-- What is put behind `%*d` could be read as its length, but is not; what is put behind a star
whose argument is missing does not matter. -/
theorem format_append_star :
    (format wordSource (Ascii.bytes "%*d")).run [5, 7] = .ok (Ascii.bytes "    7") [] ∧
      (format wordSource (Ascii.bytes "%*d" ++ Ascii.bytes "d%%")).run [5, 7] =
        .ok (Ascii.bytes "    7d%") [] ∧
      (format wordSource (Ascii.bytes "%*" ++ Ascii.bytes "d")).run [] =
        .error (.argument ()) [] := by
  have hnumber : pieces (Ascii.bytes "%*d") =
      [.directive ⟨.none, .argument, none, .int, .signed⟩] := by
    refine (pieces_percent (Ascii.bytes "*d")).trans ?_
    exact congrArg _ pieces.eq_1
  have hcut : pieces (Ascii.bytes "%*") =
      [.directive ⟨.none, .argument, none, .int, .missing⟩] := by
    refine (pieces_percent (Ascii.bytes "*")).trans ?_
    exact congrArg _ pieces.eq_1
  have hbehind : pieces (Ascii.bytes "d%%") =
      [.literal (Ascii.byte 'd'), .directive ⟨.none, .number 0, none, .int, .percent⟩] := by
    refine (pieces_of_ne (by decide) (Ascii.bytes "%%")).trans (congrArg _ ?_)
    refine (pieces_percent (Ascii.bytes "%")).trans ?_
    exact congrArg _ pieces.eq_1
  have hok : (format wordSource (Ascii.bytes "%*d")).run [5, 7] = .ok (Ascii.bytes "    7") [] := by
    unfold format
    rw [hnumber]
    rfl
  have herror : (format wordSource (Ascii.bytes "%*")).run [] = .error (.argument ()) [] := by
    unfold format
    rw [hcut]
    rfl
  have hcount : ∀ d, Piece.directive d ∈ pieces (Ascii.bytes "d%%") → d.conversion ≠ .count := by
    intro d hd
    rw [hbehind, List.mem_cons, List.mem_singleton] at hd
    rcases hd with hd | hd
    · cases hd
    · cases hd
      decide
  have happend := (format_append wordSource (Ascii.bytes "%*d") (Ascii.bytes "d%%") [5, 7]).of_ok
    _ _ hok hcount
  refine ⟨hok, ?_, ?_⟩
  · rw [happend]
    unfold format
    rw [hbehind]
    rfl
  · refine (format_append wordSource (Ascii.bytes "%*") (Ascii.bytes "d") []).of_error _ _ herror ?_
    intro h
    cases h

end Bench65.Printf
