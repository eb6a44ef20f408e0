/-!
# Sets of code points

A property of characters is given as a list of ranges of code points, both ends included. The
tables that use it list their ranges in increasing order.
-/

namespace FormWeaver.Text

/-- Whether a code point lies in one of the ranges. -/
def inRanges (ranges : Array (Nat × Nat)) (n : Nat) : Bool :=
  ranges.any fun (low, high) => low ≤ n && n ≤ high

end FormWeaver.Text
