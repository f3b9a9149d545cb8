/-!
# Ranges of characters

A property of characters is given as a table of closed intervals of code points.
-/

namespace WordMachine.Text

/-- Whether one of the intervals holds the character. -/
def withinRanges (ranges : List (Nat × Nat)) (c : Char) : Bool :=
  ranges.any fun (first, last) => first ≤ c.toNat && c.toNat ≤ last

end WordMachine.Text
