/-!
# Columns

Text set flush left in a column of fixed width, for listings. Text wider than its column is
written out in full.
-/

namespace Bench65

/-- The text with blanks after it up to `width` characters. -/
def column (width : Nat) (text : String) : String :=
  text.pushn ' ' (width - text.length)

end Bench65
