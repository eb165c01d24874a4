/-!
# Sets of characters

A `CharSet` is a table of inclusive ranges of code points.  The properties of characters that this
library reads from Unicode are tables of this form.
-/

namespace Acceptor

namespace Text

/-- A set of characters, as inclusive ranges of code points. -/
structure CharSet where
  /-- Lowest and highest code point of each range, in ascending order. -/
  ranges : List (Nat × Nat)

namespace CharSet

/-- `c` lies in one of the ranges. -/
def contains (s : CharSet) (c : Char) : Bool :=
  s.ranges.any fun r => decide (r.1 ≤ c.toNat) && decide (c.toNat ≤ r.2)

end CharSet

end Text

end Acceptor
