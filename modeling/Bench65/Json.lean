/-!
# JSON documents

Configurations and manifests are JSON. A document is read into a tree that keeps apart what the
two formats treat differently: whole numbers that fit 64 bits from all other numbers, and strings
that are text from strings with half of a surrogate pair, which are no text.

Parts of a document that nothing asks for may hold any well-formed JSON, even strings that are no
text or numbers beyond every range; `Json.isPlain` says that a part is free of those, and not nested
too deeply, which is asked of parts that are looked at as a whole.
-/

namespace Bench65

/-- A number as it is written. -/
inductive Json.Number where
  /-- A whole number of at most 64 bits. -/
  | natural (n : Nat)
  /-- A negative whole number that fits a signed 64-bit word; `n` is its absolute value. -/
  | negative (n : Nat)
  /-- Any other number, finite in double precision or not. -/
  | real (isFinite : Bool)
  deriving DecidableEq, Repr

/-- A JSON document. A string that is no text is `none`. -/
inductive Json where
  | null
  | bool (b : Bool)
  | number (n : Json.Number)
  | string (text : Option String)
  | array (items : List Json)
  | object (members : List (Option String × Json))

namespace Json

/-- The number of containers a document may have inside one another. -/
def maxDepth : Nat := 127

mutual

/-- Whether all strings are text, all numbers finite, and at most `depth` containers lie inside
one another. -/
def isPlain (depth : Nat) : Json → Bool
  | null | bool _ => true
  | number (.real isFinite) => isFinite
  | number _ => true
  | string text => text.isSome
  | array items => depth != 0 && arePlain (depth - 1) items
  | object members => depth != 0 && membersArePlain (depth - 1) members

/-- Whether all items of an array are plain. -/
def arePlain (depth : Nat) : List Json → Bool
  | [] => true
  | item :: rest => isPlain depth item && arePlain depth rest

/-- Whether all members of an object are plain, their names included. -/
def membersArePlain (depth : Nat) : List (Option String × Json) → Bool
  | [] => true
  | (name, value) :: rest => name.isSome && isPlain depth value && membersArePlain depth rest

end

end Json

end Bench65
