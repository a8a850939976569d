import Bench65.LoadError
import Bench65.Text.Blank
import Bench65.Text.Number

/-!
# Symbols

The labels of a program: names and addresses, read from a label file. A label file has one label
per line, `al`, an address in hexadecimal and a name, separated by blanks:

    al 00C0DE .name
    al C:0801 .start

Empty lines and lines that start with `#` or `;` are skipped. The first malformed line makes the
file unusable. Of two labels with one name the later counts.
-/

namespace Bench65

/-- Names and their addresses, in the order of the names' code points. -/
structure Symbols where
  /-- The labels, each name once. -/
  entries : List (String × UInt16)
  deriving DecidableEq, Repr, Inhabited

namespace Symbols

/-- No labels. -/
def empty : Symbols := ⟨[]⟩

/-- Puts a label in its place; a label of the same name is replaced. -/
def insertEntry (name : String) (a : UInt16) :
    List (String × UInt16) → List (String × UInt16)
  | [] => [(name, a)]
  | (other, b) :: rest =>
    if name = other then (name, a) :: rest
    else if name < other then (name, a) :: (other, b) :: rest
    else (other, b) :: insertEntry name a rest

/-- Adds or replaces a label. -/
def insert (s : Symbols) (name : String) (a : UInt16) : Symbols :=
  ⟨insertEntry name a s.entries⟩

/-- The address of a name. -/
def get? (s : Symbols) (name : String) : Option UInt16 :=
  s.entries.lookup name

/-! ### Label files -/

/-- The address field without the mark of the address space in front. -/
def dropSpaceMark : List Char → List Char
  | 'C' :: ':' :: rest => rest
  | field => field

/-- Reads an address field. -/
def readAddress (field : List Char) : Except LabelFault UInt16 :=
  -- 32 bits are read, so that an address that is too large is told from what is no number
  match Number.read? 16 0xFFFFFFFF (dropSpaceMark field) with
  | none => .error (.badAddress (String.ofList field))
  | some n => if n ≤ 0xFFFF then .ok (UInt16.ofNat n) else .error (.addressTooLarge n)

/-- Reads a name field, without the dot that may stand in front. -/
def readName (field : List Char) : Except LabelFault String :=
  match (match field with | '.' :: rest => rest | name => name) with
  | [] => .error .emptyName
  | name => .ok (String.ofList name)

/-- Reads the fields of a line that defines a label. -/
def readLabel (fields : List (List Char)) : Except LabelFault (String × UInt16) :=
  match fields with
  | ['a', 'l'] :: address :: name :: [] => do
    let a ← readAddress address
    let name ← readName name
    pure (name, a)
  | ['a', 'l'] :: [] => .error .missingAddress
  | ['a', 'l'] :: _ :: [] => .error .missingName
  | ['a', 'l'] :: _ => .error .trailingFields
  | command :: _ => .error (.unknownCommand (String.ofList command))
  | [] => .error .missingAddress

/-- Whether the fields of a line say nothing: there are none, or the line is a comment. -/
def isSkipped : List (List Char) → Bool
  | [] => true
  | ('#' :: _) :: _ | (';' :: _) :: _ => true
  | _ => false

/-- Adds the labels of some lines, the first of which has the given number. -/
def addLines (s : Symbols) (number : Nat) : List (List Char) → Except LoadError Symbols
  | [] => .ok s
  | line :: rest =>
    let fields := fields line
    if isSkipped fields then addLines s (number + 1) rest
    else
      match readLabel fields with
      | .ok (name, a) => addLines (s.insert name a) (number + 1) rest
      | .error fault => .error (.badLabel number fault)

/-- The lines of a text, each without its line end. -/
def lines : List Char → List (List Char)
  | [] => [[]]
  | c :: rest =>
    if c = '\n' then [] :: lines rest
    else
      match lines rest with
      | line :: others => (c :: line) :: others
      | [] => [[c]]

/-- Reads a label file. -/
def parse (text : String) : Except LoadError Symbols :=
  addLines empty 1 (lines text.toList)

end Symbols

end Bench65
