import Bench65.Printf.Directive
import Bench65.Text.Numeral
import Bench65.Word

/-!
# Formatted output

Rendering a format string with arguments, as C's `printf` does on a machine whose `int` has 16 bits
and whose `long` has 32. The arguments come from a source (`Printf.Source`): a list in a test, the
caller's stack frame in a run. Rendering runs in a monad over the source's state that keeps the
state when it fails, since stores made by earlier pieces stay.

The pieces are rendered one after another, each knowing only how many bytes came before it. A
width or precision may ask for more bytes than any buffer can hold. A style says what a converted
value would look like all the same, and the directive gives up where it would have to be built
(`confined`).
-/

namespace Bench65.Printf

/-- Why a format cannot be rendered. -/
inductive Error (ε : Type) where
  /-- An argument cannot be had. -/
  | argument (cause : ε)
  /-- The format ends inside a directive. -/
  | truncated
  /-- The conversion does not exist. -/
  | unsupported (conversion : UInt8)
  /-- A converted value is too long for any buffer. -/
  | tooLong
  deriving DecidableEq, Repr

/-- Where the arguments come from. -/
structure Source (ε σ : Type) where
  /-- The next argument of the size of an `int`. -/
  nextInt : EStateM ε σ UInt16
  /-- The next argument of the size of a `long`. -/
  nextLong : EStateM ε σ UInt32
  /-- The text at an address, of which no more than some number of bytes matter. -/
  text : UInt16 → Option Nat → EStateM ε σ (List UInt8)
  /-- Stores a number of some bytes at an address. -/
  store : UInt16 → UInt32 → (bytes : Nat) → σ → σ

/-- Rendering with a source of arguments. -/
abbrev Rendering (ε σ : Type) := EStateM (Error ε) σ

/-- Takes something from the source. -/
def fetch {ε σ α : Type} (x : EStateM ε σ α) : Rendering ε σ α :=
  x.adaptExcept .argument

/-- The number of bytes in the largest buffer there can be. -/
def capacity : Nat := 0x7FFFFFFFFFFFFFFF

/-- A converted value of at least some number of bytes. It is not built if these are already too
many. -/
def confined {ε σ : Type} (least : Nat) (text : Unit → List UInt8) :
    Rendering ε σ (List UInt8) := do
  -- a width or precision that is too large is noticed before anything is built
  if capacity < least then throw .tooLong
  let text := text ()
  if capacity < text.length then throw .tooLong
  pure text

/-! ### Fields -/

/-- How a converted value is set in its field. -/
structure Style where
  /-- The flags. -/
  flags : Flags
  /-- The least width. -/
  width : Nat
  /-- The precision, if one was given. -/
  precision : Option Nat
  deriving DecidableEq, Repr

/-- The bytes that fill a field up to its width. -/
def Style.fill (style : Style) (used : Nat) (b : UInt8) : List UInt8 :=
  List.replicate (style.width - used) b

/-- Text filled with blanks up to the width, on the side the flags ask for. -/
def Style.pad (style : Style) (text : List UInt8) : List UInt8 :=
  let blanks := style.fill text.length (Ascii.byte ' ')
  if style.flags.left then text ++ blanks else blanks ++ text

/-- A number in its field, from its sign or base mark and its digits. Zeros fill the field only
when neither flushing left nor a precision is asked for, and come after the mark. -/
def Style.padNumber (style : Style) (mark digits : List UInt8) : List UInt8 :=
  let used := mark.length + digits.length
  if style.flags.left then mark ++ digits ++ style.fill used (Ascii.byte ' ')
  else if style.flags.zero && style.precision.isNone then
    mark ++ style.fill used (Ascii.byte '0') ++ digits
  else style.fill used (Ascii.byte ' ') ++ mark ++ digits

/-- The digits of a number, at least as many as the precision asks for; zero with precision zero
has none. -/
def Style.digits (style : Style) (upper : Bool) (base n : Nat) : List UInt8 :=
  if n = 0 ∧ style.precision = some 0 then []
  else (Numeral.bytes upper base n).leftpad (style.precision.getD 0) (Ascii.byte '0')

/-- The least length of a number in its field. -/
def Style.least (style : Style) : Nat :=
  max style.width (style.precision.getD 0)

/-! ### Conversions -/

/-- The sign shown before a number. -/
def Style.sign (style : Style) (n : Int) : List UInt8 :=
  if n < 0 then Ascii.bytes "-"
  else if style.flags.plus then Ascii.bytes "+"
  else if style.flags.space then Ascii.bytes " "
  else []

/-- A signed number. -/
def Style.signed (style : Style) (n : Int) : List UInt8 :=
  style.padNumber (style.sign n) (style.digits false 10 n.natAbs)

/-- An unsigned number in decimal. -/
def Style.unsigned (style : Style) (n : Nat) : List UInt8 :=
  style.padNumber [] (style.digits false 10 n)

/-- A number in octal; the alternate form starts with a zero. -/
def Style.octal (style : Style) (n : Nat) : List UInt8 :=
  let digits := style.digits false 8 n
  let zero := Ascii.byte '0'
  style.padNumber [] <|
    if style.flags.alternate && digits.head? ≠ some zero then zero :: digits else digits

/-- A number in hexadecimal; the alternate form marks the base, except for zero. -/
def Style.hex (style : Style) (upper : Bool) (n : Nat) : List UInt8 :=
  let mark := if style.flags.alternate && n ≠ 0 then Ascii.bytes (if upper then "0X" else "0x")
    else []
  style.padNumber mark (style.digits upper 16 n)

/-- An address: four hexadecimal digits after a base mark. -/
def Style.address (style : Style) (a : UInt16) : List UInt8 :=
  style.pad (Ascii.bytes "0x" ++
    (Numeral.bytes false 16 a.toNat).leftpad 4 (Ascii.byte '0'))

/-! ### Arguments -/

section Rendering

variable {ε σ : Type} (source : Source ε σ)

/-- The next argument of some length as a signed number. -/
def nextSigned : Length → Rendering ε σ Int
  | .char => return signedByte (lowByte (← fetch source.nextInt))
  | .int => return signedWord (← fetch source.nextInt)
  | .long => return signedLong (← fetch source.nextLong)

/-- The next argument of some length as an unsigned number. -/
def nextUnsigned : Length → Rendering ε σ Nat
  | .char => return (lowByte (← fetch source.nextInt)).toNat
  | .int => return (← fetch source.nextInt).toNat
  | .long => return (← fetch source.nextLong).toNat

/-- The style of a directive: a star takes an argument. A negative width means its absolute value
flushed left, a negative precision none. -/
def Directive.style (d : Directive) : Rendering ε σ Style := do
  let (flags, width) ← match d.width with
    | .number n => pure (d.flags, n)
    | .argument =>
      let w := signedWord (← fetch source.nextInt)
      -- a negative width brings the flag with it
      pure (if w < 0 then { d.flags with left := true } else d.flags, w.natAbs)
  let precision ← match d.precision with
    | none => pure none
    | some (.number n) => pure (some n)
    | some .argument =>
      let p := signedWord (← fetch source.nextInt)
      pure (if p < 0 then none else some p.toNat)
  pure ⟨flags, width, precision⟩

/-- The text a pointer argument leads to, cut to the precision; the null pointer has a text of its
own. -/
def nextText (precision : Option Nat) : Rendering ε σ (List UInt8) := do
  let pointer ← fetch source.nextInt
  let text ← if pointer = 0 then pure (Ascii.bytes "(null)")
    else fetch (source.text pointer precision)
  -- a precision cuts the text of the null pointer too
  pure (precision.elim text text.take)

/-! ### Rendering -/

/-- Renders a directive after `written` bytes. -/
def Directive.render (d : Directive) (written : Nat) : Rendering ε σ (List UInt8) := do
  let style ← d.style source
  match d.conversion with
  | .percent => pure (Ascii.bytes "%")
  | .signed =>
    let n ← nextSigned source d.length
    confined style.least fun _ => style.signed n
  | .unsigned =>
    let n ← nextUnsigned source d.length
    confined style.least fun _ => style.unsigned n
  | .octal =>
    let n ← nextUnsigned source d.length
    confined style.least fun _ => style.octal n
  | .hex upper =>
    let n ← nextUnsigned source d.length
    confined style.least fun _ => style.hex upper n
  | .character =>
    let c ← fetch source.nextInt
    confined style.width fun _ => style.pad [lowByte c]
  | .text =>
    let text ← nextText source style.precision
    confined style.width fun _ => style.pad text
  | .pointer =>
    let a ← fetch source.nextInt
    confined style.width fun _ => style.address a
  | .count =>
    let target ← fetch source.nextInt
    -- the low bytes are stored, as many as the length says
    modify (source.store target (UInt32.ofNat written) d.length.size)
    pure []
  | .unsupported c => throw (.unsupported c)
  | .missing => throw .truncated

/-- Renders a piece after `written` bytes. -/
def Piece.render (written : Nat) : Piece → Rendering ε σ (List UInt8)
  | .literal b => pure [b]
  | .directive d => d.render source written

/-- Renders pieces one after another, the first after `written` bytes. -/
def renderPieces (written : Nat) : List Piece → Rendering ε σ (List UInt8)
  | [] => pure []
  | p :: ps => do
    let text ← p.render source written
    let rest ← renderPieces (written + text.length) ps
    pure (text ++ rest)

/-- Renders a format string. -/
def format (text : List UInt8) : Rendering ε σ (List UInt8) :=
  renderPieces source 0 (pieces text)

end Rendering

end Bench65.Printf
