/-!
# Sets of characters

A property of characters is given as the code points that have it, in closed ranges that ascend and
do not touch. Such a table is data of a standard.
-/

namespace Wordcode.Text

/-- Closed ranges of code points. -/
abbrev Ranges := List (Nat × Nat)

namespace Ranges

def has (ranges : Ranges) (c : Char) : Bool :=
  ranges.any fun (low, high) => low ≤ c.toNat && c.toNat ≤ high

end Ranges

end Wordcode.Text
