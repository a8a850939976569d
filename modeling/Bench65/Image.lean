import Bench65.Symbols
import Bench65.Text.Ascii
import Bench65.Variant
import Bench65.Word

/-!
# Program images

A program file is a header of twelve bytes followed by the code:

    offset  bytes  field
         0      5  the text `sim65`
         5      1  version, 2
         6      1  processor, 0 for the 6502 and 1 for the 65C02
         7      1  zero-page address of the C stack pointer
         8      2  load address
        10      2  entry address

Code without a header can be wrapped with addresses given otherwise. Either way a program may carry
the labels of a label file.
-/

namespace Bench65

/-- Where the code goes and how it starts. -/
structure ImageHeader where
  /-- The processor the code is for. -/
  variant : Variant
  /-- The zero-page address of the C stack pointer. -/
  pointerCell : UInt8
  /-- The address of the first byte of code. -/
  load : UInt16
  /-- The address where execution starts. -/
  entry : UInt16
  deriving DecidableEq, Repr

namespace ImageHeader

/-- The bytes a program file starts with. -/
def magic : List UInt8 :=
  Ascii.bytes "sim65"

/-- The version of the header. -/
def version : UInt8 := 2

/-- The length of the header. -/
def size : Nat := 12

/-- The header as bytes. -/
def bytes (h : ImageHeader) : List UInt8 :=
  magic ++ [version, h.variant.headerByte, h.pointerCell,
    lowByte h.load, highByte h.load, lowByte h.entry, highByte h.entry]

/-- Reads the header at the front of a file and yields it with the bytes behind it. -/
def parse (file : List UInt8) : Except LoadError (ImageHeader × List UInt8) :=
  let front := file.take magic.length
  if !front.isPrefixOf magic then .error (.badMagic front)
  else
    match file.drop magic.length with
    | v :: cpu :: pointerCell :: l₀ :: l₁ :: e₀ :: e₁ :: rest =>
      if v ≠ version then .error (.unsupportedVersion v)
      else
        match Variant.ofHeaderByte? cpu with
        | none => .error (.unsupportedCpu cpu)
        | some variant => .ok (⟨variant, pointerCell, word l₀ l₁, word e₀ e₁⟩, rest)
    | _ => .error (.truncatedHeader file.length size)

end ImageHeader

/-- A program ready to be loaded. -/
structure Image where
  /-- Where the code goes. -/
  header : ImageHeader
  /-- The code. -/
  payload : List UInt8
  /-- The labels. -/
  symbols : Symbols
  deriving DecidableEq, Repr

namespace Image

/-- Reads a program file, which must hold some code. -/
def parse (file : List UInt8) : Except LoadError Image := do
  let (header, payload) ← ImageHeader.parse file
  if payload.isEmpty then throw .emptyPayload
  pure ⟨header, payload, Symbols.empty⟩

/-- Code without a header. Its C stack pointer is at the bottom of the zero page. -/
def raw (payload : List UInt8) (load entry : UInt16) (variant : Variant) : Image :=
  ⟨⟨variant, 0, load, entry⟩, payload, Symbols.empty⟩

/-- The program with other labels. -/
def withSymbols (image : Image) (symbols : Symbols) : Image :=
  { image with symbols }

/-- The program with another place for the C stack pointer. -/
def withPointerCell (image : Image) (pointerCell : UInt8) : Image :=
  { image with header := { image.header with pointerCell } }

/-- The program as a file. -/
def bytes (image : Image) : List UInt8 :=
  image.header.bytes ++ image.payload

/-- One past the last address of the code, possibly past the address space. -/
def stop (image : Image) : Nat :=
  image.header.load.toNat + image.payload.length

end Image

end Bench65
