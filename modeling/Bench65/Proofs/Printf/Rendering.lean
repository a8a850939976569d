import Bench65.Printf
import Bench65.Proofs.Computation

/-!
# Parts of a rendering

A rendering is put together from computations that run one after another over the state of the
source: the fields of a directive are taken from it first (`Directive.style_eq`), then the argument.
-/

namespace Bench65.Printf

variable {ε σ α : Type}

theorem run_fetch (x : EStateM ε σ α) (s : σ) :
    (fetch x).run s =
      match x.run s with
      | .ok a s' => .ok a s'
      | .error cause s' => .error (.argument cause) s' := by
  unfold fetch EStateM.adaptExcept EStateM.run
  dsimp only
  cases x s with
  | ok a s' => rfl
  | error cause s' => rfl

theorem renderPieces_singleton (source : Source ε σ) (written : Nat) (p : Piece) :
    renderPieces source written [p] = p.render source written := by
  simp [renderPieces]

/-- A value that is too long is given up, wherever this shows. -/
theorem confined_eq_ite (least : Nat) (text : Unit → List UInt8) :
    (confined least text : Rendering ε σ (List UInt8)) =
      if capacity < least ∨ capacity < (text ()).length then throw .tooLong
      else pure (text ()) := by
  unfold confined
  by_cases hleast : capacity < least
  · rw [if_pos hleast, if_pos (Or.inl hleast)]
    rfl
  rw [if_neg hleast]
  by_cases hlength : capacity < (text ()).length
  · rw [if_pos hlength, if_pos (Or.inr hlength)]
    rfl
  · rw [if_neg hlength, if_neg (not_or.mpr ⟨hleast, hlength⟩)]

/-- What is known of the length beforehand does not matter. -/
theorem confined_eq {least : Nat} {text : Unit → List UInt8} (h : least ≤ (text ()).length) :
    (confined least text : Rendering ε σ (List UInt8)) =
      if (text ()).length ≤ capacity then pure (text ()) else throw .tooLong := by
  rw [confined_eq_ite]
  by_cases hfits : (text ()).length ≤ capacity
  · have hleast := Nat.le_trans h hfits
    rw [if_neg (not_or.mpr ⟨Nat.not_lt.mpr hleast, Nat.not_lt.mpr hfits⟩), if_pos hfits]
  · rw [if_pos (Or.inr (Nat.lt_of_not_le hfits)), if_neg hfits]

/-! ### Styles -/

section Style

variable (source : Source ε σ)

/-- The number of a field; a star takes it from the arguments. -/
def Field.take : Field → Rendering ε σ Int
  | number n => pure n
  | argument => do
    let w ← fetch source.nextInt
    pure (signedWord w)

/-- The number of a precision, if one is given. -/
def takePrecision : Option Field → Rendering ε σ (Option Int)
  | none => pure none
  | some field => do
    let p ← field.take source
    pure (some p)

/-- The style of a directive for the numbers of its fields. A negative width flushes left, a
negative precision is none. -/
def Directive.styleOf (d : Directive) (width : Int) (precision : Option Int) : Style where
  flags := { d.flags with left := d.flags.left || width < 0 }
  width := width.natAbs
  precision := precision.bind fun p => if p < 0 then none else some p.toNat

/-- The style of a directive takes the number of its width and then that of its precision. -/
theorem Directive.style_eq (d : Directive) :
    d.style source = (do
      let width ← d.width.take source
      let precision ← takePrecision source d.precision
      pure (d.styleOf width precision)) := by
  have hnumber : ∀ n : Nat, ¬ (n : Int) < 0 := by omega
  have hflags : ∀ w : Int, (if w < 0 then { d.flags with left := true } else d.flags) =
      { d.flags with left := d.flags.left || w < 0 } := by
    intro w
    by_cases hw : w < 0
    · simp [hw]
    · simp [hw]
  unfold Directive.style
  cases d.width <;> rcases d.precision with - | (n | -) <;>
    simp [Field.take, takePrecision, Directive.styleOf, hnumber, hflags]

end Style

end Bench65.Printf
