/-!
# Sets of code points as sorted ranges
-/

namespace CellHighlight

/-- Closed ranges of code points, in ascending order and disjoint. -/
abbrev RangeTable := List (Nat × Nat)

def RangeTable.covers : RangeTable → Nat → Bool
  | [], _ => false
  | (low, high) :: table, n =>
      if n < low then false else n ≤ high || RangeTable.covers table n

end CellHighlight
