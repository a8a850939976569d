import Bench65.Double
import Bench65.Json
import Bench65.Text.Number

/-!
# Reading JSON

A reader of the JSON grammar (RFC 8259), strict in everything the grammar says: only blanks, tabs
and line ends between tokens, no zeros in front of numbers, no control characters in strings, one
value and nothing after it. Readers take the text from the front and yield a value
with the text that is left, or nothing where the text is malformed.
-/

namespace Bench65.Json

/-- The text without the blanks in front. -/
def skipBlanks : List Char → List Char
  | [] => []
  | c :: rest =>
    if c = ' ' ∨ c = '\n' ∨ c = '\t' ∨ c = '\r' then skipBlanks rest else c :: rest

/-! ### Strings -/

/-- Reads four hexadecimal digits. -/
def readUnit : List Char → Option (Nat × List Char)
  | a :: b :: c :: d :: rest => do
    let a ← Number.digitValue? 16 a
    let b ← Number.digitValue? 16 b
    let c ← Number.digitValue? 16 c
    let d ← Number.digitValue? 16 d
    some (((a * 16 + b) * 16 + c) * 16 + d, rest)
  | _ => none

/-- The character of a two-character escape. -/
def escaped? : Char → Option Char
  | '"' => some '"'
  | '\\' => some '\\'
  | '/' => some '/'
  | 'b' => some '\x08'
  | 'f' => some '\x0c'
  | 'n' => some '\n'
  | 'r' => some '\r'
  | 't' => some '\t'
  | _ => none

/-- Whether a UTF-16 unit is the first half of a surrogate pair. -/
def isHighSurrogate (n : Nat) : Bool :=
  0xD800 ≤ n && n < 0xDC00

/-- Whether a UTF-16 unit is the second half of a surrogate pair. -/
def isLowSurrogate (n : Nat) : Bool :=
  0xDC00 ≤ n && n < 0xE000

/-- The character of a surrogate pair. -/
def pairChar (high low : Nat) : Char :=
  Char.ofNat (0x10000 + (high - 0xD800) * 0x400 + (low - 0xDC00))

/-- Reads the digits of an escaped UTF-16 unit, and the second one of a pair. Half a pair is
`none`. -/
def readEscapedUnit (s : List Char) : Option (Option Char × List Char) := do
  let (n, rest) ← readUnit s
  if isHighSurrogate n then
    match rest with
    | '\\' :: 'u' :: after =>
      -- a unit that is no second half is left to be read on its own
      let (low, rest') ← readUnit after
      if isLowSurrogate low then some (some (pairChar n low), rest') else some (none, rest)
    | _ => some (none, rest)
  else if isLowSurrogate n then some (none, rest)
  else some (some (Char.ofNat n), rest)

/-- Reads the rest of a string up to its closing quote, after the characters already read, last
first; these are `none` once the string is known to be no text. -/
def readStringFrom (found : Option (List Char)) :
    (fuel : Nat) → List Char → Option (Option String × List Char)
  | 0, _ => none
  | _ + 1, [] => none
  | fuel + 1, c :: rest =>
    if c = '"' then some (found.map (String.ofList ·.reverse), rest)
    else if c = '\\' then
      match rest with
      | 'u' :: rest => do
        let (unit, rest) ← readEscapedUnit rest
        readStringFrom (do let found ← found; let c ← unit; some (c :: found)) fuel rest
      | e :: rest => do
        let c ← escaped? e
        readStringFrom (found.map (c :: ·)) fuel rest
      | [] => none
    else if c.toNat < 0x20 then none
    else readStringFrom (found.map (c :: ·)) fuel rest

/-- Reads a string whose opening quote has been read. -/
def readString (s : List Char) : Option (Option String × List Char) :=
  readStringFrom (some []) s.length s

/-! ### Numbers -/

/-- Reads decimal digits as long as there are any, after some already read, last first. -/
def readDigits (found : List Nat) : List Char → List Nat × List Char
  | [] => (found.reverse, [])
  | c :: rest =>
    match Number.digitValue? 10 c with
    | some d => readDigits (d :: found) rest
    | none => (found.reverse, c :: rest)

/-- Reads one or more decimal digits. -/
def readSomeDigits (s : List Char) : Option (List Nat × List Char) :=
  match readDigits [] s with
  | ([], _) => none
  | (ds, rest) => some (ds, rest)

/-- Reads the digits before the point: a zero alone, or digits that do not start with one. -/
def readWhole (s : List Char) : Option (List Nat × List Char) := do
  let (ds, rest) ← readSomeDigits s
  match ds with
  | 0 :: _ :: _ => none
  | _ => some (ds, rest)

/-- Reads a point and the digits after it, if there is a point. -/
def readFraction : List Char → Option (Option (List Nat) × List Char)
  | '.' :: rest => do
    let (ds, rest) ← readSomeDigits rest
    some (some ds, rest)
  | s => some (none, s)

/-- The greatest exponent that is told apart from greater ones. -/
def maxExponent : Nat :=
  0x7FFFFFFF

/-- The exponent that digits denote, or `maxExponent` if it is greater. -/
def exponentValue (ds : List Nat) : Nat :=
  ds.foldl (fun n d => min (10 * n + d) maxExponent) 0

/-- Reads an exponent, if there is one. -/
def readExponent : List Char → Option (Option Int × List Char)
  | c :: rest =>
    if c = 'e' ∨ c = 'E' then
      match rest with
      | '+' :: rest => do
        let (ds, rest) ← readSomeDigits rest
        some (some (exponentValue ds), rest)
      | '-' :: rest => do
        let (ds, rest) ← readSomeDigits rest
        some (some (-(exponentValue ds : Int)), rest)
      | rest => do
        let (ds, rest) ← readSomeDigits rest
        some (some (exponentValue ds), rest)
    else some (none, c :: rest)
  | [] => some (none, [])

/-- Appends digits to a number as long as it fits 64 bits; the first digit that does not fit and all
behind it are left off. Yields the number and how many digits it took. -/
def appendDigits (n : Nat) : List Nat → Nat × Nat
  | [] => (n, 0)
  | d :: rest =>
    if 10 * n + d ≤ 0xFFFFFFFFFFFFFFFF then
      let (m, taken) := appendDigits (10 * n + d) rest
      (m, taken + 1)
    else (n, 0)

/-- Whether a number times a power of ten is finite in double precision, the number, the power and
their product all being rounded. A negative power only makes the number smaller. -/
def isFiniteScaled (n : Nat) (exponent : Int) : Bool :=
  if n = 0 ∨ exponent < 0 then true
  else if 308 < exponent then false
  else Double.isFinite (Double.multiply (Double.ofNat n) (Double.ofNat (Nat.pow 10 exponent.toNat)))

/-- A number from its sign and parts. It is whole if it has neither fraction nor exponent and fits
64 bits; a negative zero is no whole number. Any other number is its leading digits, as many as
fit 64 bits, times a power of ten: a digit left off before the point raises the power, a digit
taken behind the point lowers it. -/
def Number.ofParts (isNegative : Bool) (whole : List Nat) (fraction : Option (List Nat))
    (exponent : Option Int) : Json.Number :=
  let (n, taken) := appendDigits 0 whole
  let dropped := whole.length - taken
  -- a number that does not fit 64 bits is no whole number any more
  if fraction.isNone && exponent.isNone && dropped = 0 then
    if !isNegative then .natural n
    else if n ≠ 0 && n ≤ 0x8000000000000000 then .negative n
    else .real true
  else
    let (n, places) := appendDigits n (fraction.getD [])
    .real (isFiniteScaled n (exponent.getD 0 + dropped - places))

/-- Reads a number. -/
def readNumber (s : List Char) : Option (Json.Number × List Char) := do
  let (isNegative, s) := match s with
    | '-' :: rest => (true, rest)
    | s => (false, s)
  let (whole, s) ← readWhole s
  let (fraction, s) ← readFraction s
  let (exponent, s) ← readExponent s
  some (.ofParts isNegative whole fraction exponent, s)

/-! ### Values -/

mutual

/-- Reads a value. -/
def readValue : (fuel : Nat) → List Char → Option (Json × List Char)
  | 0, _ => none
  | fuel + 1, s =>
    match skipBlanks s with
    | 'n' :: 'u' :: 'l' :: 'l' :: rest => some (null, rest)
    | 't' :: 'r' :: 'u' :: 'e' :: rest => some (bool true, rest)
    | 'f' :: 'a' :: 'l' :: 's' :: 'e' :: rest => some (bool false, rest)
    | '"' :: rest => (readString rest).map fun (text, rest) => (string text, rest)
    | '[' :: rest =>
      match skipBlanks rest with
      | ']' :: rest => some (array [], rest)
      | rest => (readItems fuel rest).map fun (items, rest) => (array items, rest)
    | '\x7b' :: rest =>
      match skipBlanks rest with
      | '\x7d' :: rest => some (object [], rest)
      | rest => (readMembers fuel rest).map fun (members, rest) => (object members, rest)
    | s => (readNumber s).map fun (n, rest) => (number n, rest)

/-- Reads the items of an array, up to its closing bracket. -/
def readItems : (fuel : Nat) → List Char → Option (List Json × List Char)
  | 0, _ => none
  | fuel + 1, s => do
    let (item, s) ← readValue fuel s
    match skipBlanks s with
    | ',' :: rest =>
      let (items, rest) ← readItems fuel rest
      some (item :: items, rest)
    | ']' :: rest => some ([item], rest)
    | _ => none

/-- Reads the members of an object, up to its closing brace. -/
def readMembers : (fuel : Nat) → List Char → Option (List (Option String × Json) × List Char)
  | 0, _ => none
  | fuel + 1, s =>
    match skipBlanks s with
    | '"' :: rest => do
      let (name, rest) ← readString rest
      match skipBlanks rest with
      | ':' :: rest =>
        let (value, rest) ← readValue fuel rest
        match skipBlanks rest with
        | ',' :: rest =>
          let (members, rest) ← readMembers fuel rest
          some ((name, value) :: members, rest)
        | '\x7d' :: rest => some ([(name, value)], rest)
        | _ => none
      | _ => none
    | _ => none

end

/-- Reads a document: one value, with nothing but blanks around it. Every level of nesting and
every item takes at least one character and two units of fuel. -/
def parse? (text : String) : Option Json := do
  let s := text.toList
  let (value, rest) ← readValue (2 * s.length + 2) s
  match skipBlanks rest with
  | [] => some value
  | _ => none

end Bench65.Json
