import ProgressiveSearch.Log.Entry

/-!
# Spans

A stretch of work during which entries are written. Spans of one kind have a name in common, and a
number that tells each from the others.
-/
namespace ProgressiveSearch.Log

/-- A stretch of work. -/
structure Span where
  name : String
  numberName : String
  number : Nat
  /-- The part that does the work. -/
  origin : Origin
  deriving DecidableEq, Repr

/-- The text of a span. -/
def Span.text (s : Span) : String :=
  s.name ++ "\x7b" ++ s.numberName ++ "=" ++ toString s.number ++ "\x7d"

end ProgressiveSearch.Log
