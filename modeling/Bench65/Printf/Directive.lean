import Bench65.Text.Ascii

/-!
# Format strings

A format string is ordinary bytes and directives: a percent sign, flags in any order, a field
width, a precision, a length and a conversion. `Printf.pieces` reads a whole format; it never
fails, because what makes a directive unusable (an unknown conversion, or none before the format
ends) is part of the piece and shows only when the piece is rendered, after the arguments that
its stars take.
-/

namespace Bench65.Printf

/-- The flags of a directive; the order and repetition of flags do not matter. -/
structure Flags where
  /-- `-`: flush left. -/
  left : Bool
  /-- `+`: a sign also for positive numbers. -/
  plus : Bool
  /-- A blank in place of the sign of positive numbers. -/
  space : Bool
  /-- `#`: the alternate form, which shows the base. -/
  alternate : Bool
  /-- `0`: filled with zeros. -/
  zero : Bool
  deriving DecidableEq, Repr

/-- No flags. -/
def Flags.none : Flags := ⟨false, false, false, false, false⟩

/-- A width or precision: written out, or taken from the arguments where a star stands. -/
inductive Field where
  /-- A number in the format; no digits mean zero. -/
  | number (n : Nat)
  /-- A star. -/
  | argument
  deriving DecidableEq, Repr

/-- The size of an integer argument. -/
inductive Length where
  /-- `hh`: passed as an `int` of which the low byte counts. -/
  | char
  /-- An `int`; so are `h`, `z` and `t`. -/
  | int
  /-- `l` and `j`. -/
  | long
  deriving DecidableEq, Repr

/-- The size of an integer in bytes. -/
def Length.size : Length → Nat
  | char => 1
  | int => 2
  | long => 4

/-- What a directive converts. -/
inductive Conversion where
  /-- `%`: a percent sign, no argument. -/
  | percent
  /-- `d` or `i`: a signed number in decimal. -/
  | signed
  /-- `u`: an unsigned number in decimal. -/
  | unsigned
  /-- `o`: in octal. -/
  | octal
  /-- `x` or `X`: in hexadecimal, with small or capital digits. -/
  | hex (upper : Bool)
  /-- `c`: one character. -/
  | character
  /-- `s`: text. -/
  | text
  /-- `p`: an address. -/
  | pointer
  /-- `n`: stores the number of bytes written so far. -/
  | count
  /-- A character that is no conversion. -/
  | unsupported (c : UInt8)
  /-- The format ends here. -/
  | missing
  deriving DecidableEq, Repr

/-- One conversion specification. -/
structure Directive where
  /-- The flags. -/
  flags : Flags
  /-- The least width of the field. -/
  width : Field
  /-- The precision, if a point is there. -/
  precision : Option Field
  /-- The size of an integer argument. -/
  length : Length
  /-- What is converted. -/
  conversion : Conversion
  deriving DecidableEq, Repr

/-- A part of a format. -/
inductive Piece where
  /-- A byte that stands for itself. -/
  | literal (b : UInt8)
  /-- A conversion specification. -/
  | directive (d : Directive)
  deriving DecidableEq, Repr

/-! ### Reading the parts of a directive -/

/-- The flags with one more, if the byte is one. -/
def Flags.add? (f : Flags) (b : UInt8) : Option Flags :=
  match Ascii.char b with
  | '-' => some { f with left := true }
  | '+' => some { f with plus := true }
  | ' ' => some { f with space := true }
  | '#' => some { f with alternate := true }
  | '0' => some { f with zero := true }
  | _ => Option.none

/-- Reads flags as long as there are any. -/
def readFlags (f : Flags) : List UInt8 → Flags × List UInt8
  | [] => (f, [])
  | b :: rest =>
    match f.add? b with
    | some f => readFlags f rest
    | none => (f, b :: rest)

/-- The largest number a field can hold. -/
def fieldLimit : Nat := 0xFFFFFFFFFFFFFFFF

/-- Reads decimal digits as long as there are any, after a number already read. A number that is too
large for a field stays at the limit. -/
def readNumber (n : Nat) : List UInt8 → Nat × List UInt8
  | [] => (n, [])
  | b :: rest =>
    match Ascii.digitValue? b with
    | some d => readNumber (min (10 * n + d) fieldLimit) rest
    | none => (n, b :: rest)

/-- Reads a star or a number. -/
def readField (s : List UInt8) : Field × List UInt8 :=
  match s with
  | [] => (.number 0, [])
  | b :: rest =>
    if b = Ascii.byte '*' then (.argument, rest)
    else
      -- where no digit is, the number is zero, which is what a point alone stands for
      let (n, rest) := readNumber 0 s
      (.number n, rest)

/-- Reads a point and the precision after it, if there is a point. -/
def readPrecision (s : List UInt8) : Option Field × List UInt8 :=
  match s with
  | [] => (none, [])
  | b :: rest =>
    if b = Ascii.byte '.' then
      let (field, rest) := readField rest
      (some field, rest)
    else (none, s)

/-- Reads a length, if there is one. -/
def readLength (s : List UInt8) : Length × List UInt8 :=
  match s with
  | [] => (.int, [])
  | b :: rest =>
    match Ascii.char b with
    | 'h' =>
      match rest with
      | c :: rest' => if c = Ascii.byte 'h' then (.char, rest') else (.int, rest)
      | [] => (.int, [])
    -- a size and a difference of pointers have 16 bits, like an `int`
    | 'z' | 't' => (.int, rest)
    | 'l' | 'j' => (.long, rest)
    | _ => (.int, s)

/-- The conversion that a byte asks for. -/
def Conversion.ofByte (b : UInt8) : Conversion :=
  match Ascii.char b with
  | '%' => percent
  | 'd' | 'i' => signed
  | 'u' => unsigned
  | 'o' => octal
  | 'x' => hex false
  | 'X' => hex true
  | 'c' => character
  | 's' => text
  | 'p' => pointer
  | 'n' => count
  | _ => unsupported b

/-- Reads the conversion, which is missing at the end of the format. -/
def readConversion : List UInt8 → Conversion × List UInt8
  | [] => (.missing, [])
  | b :: rest => (.ofByte b, rest)

/-- Reads a directive whose percent sign has been read. -/
def readDirective (s : List UInt8) : Directive × List UInt8 :=
  let (flags, s) := readFlags .none s
  let (width, s) := readField s
  let (precision, s) := readPrecision s
  let (length, s) := readLength s
  let (conversion, s) := readConversion s
  (⟨flags, width, precision, length, conversion⟩, s)

/-! ### Reading consumes -/

theorem length_readFlags (f : Flags) (s : List UInt8) : (readFlags f s).2.length ≤ s.length := by
  induction s generalizing f with
  | nil => simp [readFlags]
  | cons b rest ih =>
    rw [readFlags]
    split
    · exact Nat.le_succ_of_le (ih _)
    · exact Nat.le_refl _

theorem length_readNumber (n : Nat) (s : List UInt8) :
    (readNumber n s).2.length ≤ s.length := by
  induction s generalizing n with
  | nil => simp [readNumber]
  | cons b rest ih =>
    rw [readNumber]
    split
    · exact Nat.le_succ_of_le (ih _)
    · exact Nat.le_refl _

theorem length_readField (s : List UInt8) : (readField s).2.length ≤ s.length := by
  cases s with
  | nil => simp [readField]
  | cons b rest =>
    rw [readField]
    split
    · simp
    · exact length_readNumber 0 (b :: rest)

theorem length_readPrecision (s : List UInt8) : (readPrecision s).2.length ≤ s.length := by
  cases s with
  | nil => simp [readPrecision]
  | cons b rest =>
    rw [readPrecision]
    split
    · exact Nat.le_succ_of_le (length_readField rest)
    · exact Nat.le_refl _

theorem length_readLength (s : List UInt8) : (readLength s).2.length ≤ s.length := by
  cases s with
  | nil => simp [readLength]
  | cons b rest =>
    simp only [readLength]
    split
    · cases rest with
      | nil => simp
      | cons c rest' =>
        dsimp only
        split
        · simp only [List.length_cons]
          omega
        · simp
    all_goals simp

theorem length_readConversion (s : List UInt8) : (readConversion s).2.length ≤ s.length := by
  cases s <;> simp [readConversion]

/-- Reading a directive never reads past the end. -/
theorem length_readDirective (s : List UInt8) : (readDirective s).2.length ≤ s.length :=
  Nat.le_trans (length_readConversion _) <| Nat.le_trans (length_readLength _) <|
    Nat.le_trans (length_readPrecision _) <| Nat.le_trans (length_readField _) <|
      length_readFlags _ _

/-! ### Reading a format -/

/-- The pieces of a format string. -/
def pieces : List UInt8 → List Piece
  | [] => []
  | b :: rest =>
    if b = Ascii.byte '%' then
      have := length_readDirective rest
      .directive (readDirective rest).1 :: pieces (readDirective rest).2
    else .literal b :: pieces rest
  termination_by s => s.length
  decreasing_by all_goals simp; try omega

end Bench65.Printf
