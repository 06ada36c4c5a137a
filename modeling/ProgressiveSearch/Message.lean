import ProgressiveSearch.Score

/-!
# Messages

What the two sides of a call say to each other: contexts go one way, batches of scored items come
back.
-/
namespace ProgressiveSearch

/-- One wave of search intent. The first context of a call has an empty refinement. -/
structure Context where
  query : String
  subjectId : String
  refinement : String
  deriving DecidableEq, Repr, Inhabited

/-- A single scored result. -/
structure Item where
  subjectId : String
  itemId : String
  score : Score
  deriving DecidableEq, Repr, Inhabited

/-- One answer: the results of a revision, best first. -/
structure Batch where
  items : List Item
  revision : UInt32
  deriving DecidableEq, Repr, Inhabited

end ProgressiveSearch
