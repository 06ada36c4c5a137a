import ProgressiveSearch.Text.Blank

/-!
# Headlines

The part of a longer text that is reported: its first line, without the blanks at the end.
-/
namespace ProgressiveSearch.Text

/-- The characters before the first line break. -/
def firstLine (cs : List Char) : List Char := cs.takeWhile (· ≠ '\n')

/-- A text without the blanks at its end. -/
def trimEnd (cs : List Char) : List Char := (cs.reverse.dropWhile isBlankChar).reverse

/-- The first line of a text, without the blanks at its end. -/
def headline (s : String) : String := String.ofList (trimEnd (firstLine s.toList))

end ProgressiveSearch.Text
