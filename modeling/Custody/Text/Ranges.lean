/-!
# Ranges of code points

Properties of characters are given by the ranges of code points that have them.
-/

namespace Custody

/-- Whether a number lies in one of the ranges, each given by its first and last number. -/
def inRanges (ranges : List (Nat × Nat)) (n : Nat) : Bool :=
  ranges.any fun (first, last) => first ≤ n && n ≤ last

end Custody
