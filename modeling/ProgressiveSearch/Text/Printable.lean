import ProgressiveSearch.Text.Combining
import ProgressiveSearch.Text.Hidden

/-!
# Printable characters

Which characters can be shown as themselves inside a quoted text. Two properties stand in the way:
a character may have no visible form, or it may attach to the character before it.
-/
namespace ProgressiveSearch.Text

/-- A character that can stand for itself inside a quoted text. -/
def isPrintable (c : Char) : Bool :=
  if 0x20 ≤ c.toNat && c.toNat < 0x7F then true else !(isHidden c || isCombining c)

end ProgressiveSearch.Text
