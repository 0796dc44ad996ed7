/-!
# Ranges of code points

Character classes that no short rule describes are lists of closed ranges.
-/

namespace UrlFilter.Text

/-- A closed range of code points. -/
structure CodeRange where
  first : Nat
  last : Nat

/-- The character's code point lies in the range, both ends included. -/
def CodeRange.contains (range : CodeRange) (c : Char) : Bool :=
  range.first ≤ c.toNat && c.toNat ≤ range.last

/-- The character lies in one of the ranges. -/
def inRanges (ranges : List CodeRange) (c : Char) : Bool :=
  ranges.any fun range => range.contains c

end UrlFilter.Text
