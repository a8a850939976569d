import Bench65.Json
import Bench65.Variant
import Bench65.Fault

/-!
# Taking documents apart

A document is turned into a value of the domain by asking its parts for what they should be. A
decoder yields nothing where the document has another form; which part is at fault does not
matter to any caller.

A record may be written as an object, by the names of its fields, or as an array, by their order;
an array may leave out fields at its end. A choice may be written as its name alone or as an object
with that one name and `null`.
-/

namespace Bench65.Json

/-- A decoder of documents. -/
abbrev Decoder (α : Type) := Json → Option α

/-! ### Plain values -/

/-- A truth value. -/
def toBool : Decoder Bool
  | bool b => some b
  | _ => none

/-- Text. -/
def toText : Decoder String
  | string text => text
  | _ => none

/-- A whole number up to a limit. -/
def toNat (limit : Nat) : Decoder Nat
  | number (.natural n) => if n ≤ limit then some n else none
  | _ => none

/-- A byte. -/
def toByte : Decoder UInt8
  | j => (toNat 0xFF j).map UInt8.ofNat

/-- A word. -/
def toWord : Decoder UInt16
  | j => (toNat 0xFFFF j).map UInt16.ofNat

/-- A count of at most 64 bits. -/
def toCount : Decoder Nat :=
  toNat 0xFFFFFFFFFFFFFFFF

/-- A signed number of 32 bits. -/
def toInt32 : Decoder Int
  | number (.natural n) => if n < 0x80000000 then some n else none
  | number (.negative n) => if n ≤ 0x80000000 then some (-(n : Int)) else none
  | _ => none

/-- A value that may be `null`. -/
def toOption {α : Type} (decode : Decoder α) : Decoder (Option α)
  | null => some none
  | j => (decode j).map some

/-- A list. -/
def toList {α : Type} (decode : Decoder α) : Decoder (List α)
  | array items => items.mapM decode
  | _ => none

/-- A choice among names. -/
def toChoice {α : Type} (ofName? : String → Option α) : Decoder α
  | string (some name) => ofName? name
  | object [(some name, null)] => ofName? name
  | _ => none

/-! ### Records -/

/-- The values of a record's fields; a field that is not written is `none`. -/
abbrev Record := List (String × Json)

/-- The fields of an object by name. A name that is no text, or a field written twice, is an
error; so is a name that no field has, if the record is closed. -/
def objectFields (names : List String) (isClosed : Bool) :
    List (Option String × Json) → Option Record
  | [] => some []
  | (none, _) :: _ => none
  | (some name, value) :: rest => do
    let fields ← objectFields names isClosed rest
    if names.contains name then
      if fields.any (·.1 == name) then none else some ((name, value) :: fields)
    else if isClosed then none
    else some fields

/-- The fields of a record, which is an object or an array. -/
def toRecord (names : List String) (isClosed : Bool) : Decoder Record
  | object members => objectFields names isClosed members
  | array items => if items.length ≤ names.length then some (names.zip items) else none
  | _ => none

/-- A field, which must be written. -/
def Record.required {α : Type} (r : Record) (name : String) (decode : Decoder α) : Option α :=
  (r.lookup name).bind decode

/-- A field with a value for when it is not written. -/
def Record.optional {α : Type} (r : Record) (name : String) (decode : Decoder α) (default : α) :
    Option α :=
  match r.lookup name with
  | none => some default
  | some j => decode j

/-! ### Choices of the domain -/

/-- A processor variant, by its name or by its part number. -/
def toVariant : Decoder Variant :=
  toChoice fun name =>
    if name = Variant.nmos.name ∨ name = "6502" then some .nmos
    else if name = Variant.cmos.name ∨ name = "65C02" then some .cmos
    else none

/-- A kind of fault. -/
def toFaultKind : Decoder FaultKind :=
  toChoice fun name =>
    [FaultKind.illegalInstruction, .contractViolation, .timeout].find? (·.name == name)

end Bench65.Json
