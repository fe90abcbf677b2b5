/-!
# Ranges of characters

A class of characters is written as ascending, disjoint ranges of code points, both ends included.
-/

namespace TimedText.Text

/-- Whether the character lies in one of the ranges. -/
def inRanges (ranges : List (Nat × Nat)) (c : Char) : Bool :=
  ranges.any fun (a, b) => a ≤ c.toNat && c.toNat ≤ b

end TimedText.Text
