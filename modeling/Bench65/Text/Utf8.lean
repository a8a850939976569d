/-!
# UTF-8 with mistakes

Bytes that a program wrote are shown as text even where they are not valid UTF-8: each longest
run of bytes that could start a character, but does not go on as one, becomes one replacement
character.
-/

namespace Bench65.Utf8

/-- The replacement character. -/
def replacement : Char := '\ufffd'

/-- What a first byte promises: the number of bytes to follow, the bits it contributes, and the
range of the first byte that follows. The ranges exclude encodings that are too long, surrogates
and numbers beyond the last character. -/
def lead? (b : UInt8) : Option (Nat × Nat × UInt8 × UInt8) :=
  if 0xC2 ≤ b && b ≤ 0xDF then some (1, b.toNat - 0xC0, 0x80, 0xBF)
  else if b = 0xE0 then some (2, 0, 0xA0, 0xBF)
  else if b = 0xED then some (2, 0xD, 0x80, 0x9F)
  else if 0xE1 ≤ b && b ≤ 0xEF then some (2, b.toNat - 0xE0, 0x80, 0xBF)
  else if b = 0xF0 then some (3, 0, 0x90, 0xBF)
  else if 0xF1 ≤ b && b ≤ 0xF3 then some (3, b.toNat - 0xF0, 0x80, 0xBF)
  else if b = 0xF4 then some (3, 4, 0x80, 0x8F)
  else none

/-- A character that is not complete: the bytes still to come, the bits so far, and the range of
the next byte. -/
structure Pending where
  /-- The number of bytes to come. -/
  more : Nat
  /-- The bits so far. -/
  bits : Nat
  /-- The least next byte. -/
  least : UInt8
  /-- The greatest next byte. -/
  greatest : UInt8

/-- Takes a byte where a character starts: the text so far, last character first, and the
character begun, if any. -/
def begin (text : List Char) (b : UInt8) : List Char × Option Pending :=
  if b < 0x80 then (Char.ofNat b.toNat :: text, none)
  else
    match lead? b with
    | some (more, bits, least, greatest) => (text, some ⟨more, bits, least, greatest⟩)
    | none => (replacement :: text, none)

/-- Takes the next byte. -/
def next (state : List Char × Option Pending) (b : UInt8) : List Char × Option Pending :=
  match state with
  | (text, none) => begin text b
  | (text, some p) =>
    if p.least ≤ b && b ≤ p.greatest then
      let bits := p.bits * 64 + (b.toNat - 0x80)
      if p.more = 1 then (Char.ofNat bits :: text, none)
      else (text, some ⟨p.more - 1, bits, 0x80, 0xBF⟩)
    else begin (replacement :: text) b

/-- The text of some bytes. -/
def decode (bytes : List UInt8) : String :=
  match bytes.foldl next ([], none) with
  | (text, none) => String.ofList text.reverse
  | (text, some _) => String.ofList (replacement :: text).reverse

end Bench65.Utf8
