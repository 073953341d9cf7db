/-
  LayeredConfig.Text.Ranges

  Classes of characters given by ranges of code points.
-/

namespace LayeredConfig.Text

/-- Whether `n` lies in one of the ranges, whose two ends belong to them. -/
def inRanges (ranges : List (Nat × Nat)) (n : Nat) : Bool :=
  ranges.any fun (low, high) => low ≤ n && n ≤ high

end LayeredConfig.Text
