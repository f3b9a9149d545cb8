import WordMachine.Text.Ranges

/-!
# Blank characters

The characters with the Unicode property White_Space, and trimming by them. Line
ends are among them, and so are the wide spaces of typography; zero width
characters are not.
-/

namespace WordMachine.Text

/-- The code points with the property White_Space. -/
def blankRanges : List (Nat × Nat) :=
  [(0x9, 0xD), (0x20, 0x20), (0x85, 0x85), (0xA0, 0xA0), (0x1680, 0x1680), (0x2000, 0x200A),
    (0x2028, 0x2029), (0x202F, 0x202F), (0x205F, 0x205F), (0x3000, 0x3000)]

/-- Whether the character has the property White_Space. -/
def isBlank (c : Char) : Bool := withinRanges blankRanges c

/-- Removes the longest run of characters satisfying `p` from either end. -/
def trimWhile (p : Char → Bool) (cs : List Char) : List Char :=
  ((cs.dropWhile p).reverse.dropWhile p).reverse

/-- Removes blank characters from either end. -/
def trim (cs : List Char) : List Char := trimWhile isBlank cs

example : blankRanges.Pairwise fun a b => a.2 < b.1 := by decide

end WordMachine.Text
