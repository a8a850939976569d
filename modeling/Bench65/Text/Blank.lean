/-!
# Blanks and fields

The characters that separate fields on a line: all characters with the Unicode property
`White_Space`, of which there are 25, six of them in ASCII.
-/

namespace Bench65

/-- Whether a character has the property `White_Space`. -/
def isBlank (c : Char) : Bool :=
  let n := c.toNat
  (0x09 ≤ n && n ≤ 0x0D) || n == 0x20 || n == 0x85 || n == 0xA0 || n == 0x1680 ||
  (0x2000 ≤ n && n ≤ 0x200A) || n == 0x2028 || n == 0x2029 || n == 0x202F || n == 0x205F ||
  n == 0x3000

/-- Whether a field starts at the front: the character there is no blank. -/
def startsField : List Char → Bool
  | [] => false
  | c :: _ => !isBlank c

/-- The fields of a line: the longest runs of characters that are not blank. -/
def fields : List Char → List (List Char)
  | [] => []
  | c :: rest =>
    if isBlank c then fields rest
    else if startsField rest then
      match fields rest with
      | field :: others => (c :: field) :: others
      | [] => [[c]]
    else [c] :: fields rest

/-- Every blank of core's ASCII class is a blank. -/
theorem isBlank_of_isWhitespace {c : Char} (h : c.isWhitespace = true) : isBlank c = true := by
  simp only [Char.isWhitespace, Bool.or_eq_true, decide_eq_true_eq] at h
  rcases h with ((rfl | rfl) | rfl) | rfl <;> decide

end Bench65
