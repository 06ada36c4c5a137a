/-!
# Blank characters

A character is blank when Unicode gives it the property White_Space. A text is blank when all
its characters are, which is the test for an address or a URL that was given but says nothing.
-/
namespace ProgressiveSearch.Text

/-- The code points with the property White_Space, as closed ranges in ascending order. -/
def blankRanges : List (Nat × Nat) :=
  [(0x9, 0xD), (0x20, 0x20), (0x85, 0x85), (0xA0, 0xA0), (0x1680, 0x1680), (0x2000, 0x200A),
   (0x2028, 0x2029), (0x202F, 0x202F), (0x205F, 0x205F), (0x3000, 0x3000)]

/-- A code point lies in one of the ranges. -/
def inRanges (ranges : List (Nat × Nat)) (code : Nat) : Bool :=
  ranges.any fun r => r.1 ≤ code && code ≤ r.2

/-- A character with the property White_Space. -/
def isBlankChar (c : Char) : Bool :=
  inRanges blankRanges c.toNat

/-- A text without any character that is not blank. -/
def isBlank (s : String) : Bool :=
  s.toList.all isBlankChar

end ProgressiveSearch.Text
