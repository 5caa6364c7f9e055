/-!
# Ranges of characters

A property of characters as the ranges of the code points that have it.
-/

namespace ChangeFeed.Text

/-- Ranges of code points: the first and the last one of each. -/
abbrev Ranges := List (Nat × Nat)

/-- Whether a character lies in one of the ranges. -/
def within (ranges : Ranges) (c : Char) : Bool :=
  ranges.any fun range => range.1 ≤ c.toNat && c.toNat ≤ range.2

end ChangeFeed.Text
