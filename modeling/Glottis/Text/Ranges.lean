/-!
# Ranges of code points

A class of characters is a list of closed ranges of code points.
-/

namespace Glottis.Text

/-- Closed ranges of code points: the first and the last of each. -/
abbrev Ranges := List (Nat × Nat)

def Ranges.contain (ranges : Ranges) (point : Nat) : Bool :=
  ranges.any fun (first, last) => decide (first ≤ point) && decide (point ≤ last)

end Glottis.Text
