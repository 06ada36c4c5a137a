import ProgressiveSearch.Contract
import ProgressiveSearch.Message
import ProgressiveSearch.Random.SipHash
import ProgressiveSearch.Random.Source

/-!
# Ranking

A ranker turns a context and a revision into a batch. The hash ranker makes its scores up, the same
ones each time: query and subject seed a source of random words, which gives the number of items
and then one jitter for each; each item has a base score by its hash, a refinement raises all of
them by a boost, and later revisions scale them up. Items are listed by falling score.
-/
namespace ProgressiveSearch

/-- Produces the batch of one revision of a call. -/
abbrev Ranker := Context → UInt32 → Batch

namespace Ranking

/-- The seed of a context's source of random words. -/
def seed (c : Context) : UInt64 :=
  SipHash.digest (SipHash.textBytes c.query ++ SipHash.textBytes c.subjectId)

/-- The factor that a revision puts on all scores. -/
def multiplier (revision : UInt32) : Float :=
  if revision = 1 then 0.7
  else if revision = 2 then 0.9
  else if revision = 3 then 1.1
  else 1.0

/-- A hash reduced to thousandths below `limit / 1000`. -/
def thousandths (hash : UInt64) (limit : UInt64) : Float :=
  (hash % limit).toFloat / 1000.0

/-- What a refinement adds to every score: nothing, or up to a fifth. -/
def boost (refinement : String) : Float :=
  if refinement.isEmpty then 0.0
  else thousandths (SipHash.digest (SipHash.textBytes refinement)) 200

/-- The score of the item at an index before anything is added to it. -/
def base (c : Context) (index : Nat) : Float :=
  thousandths
    (SipHash.digest (SipHash.textBytes c.query ++ SipHash.textBytes c.subjectId ++
      SipHash.numberBytes (UInt64.ofNat index)))
    1000

/-- A number from 0 up to but not including 1, from the high bits of a 64-bit word. -/
def unitFloat (x : UInt64) : Float :=
  Float.ofBits (((0x3ff : UInt64) <<< 52) ||| (x >>> 12)) - 1.0

/-- A jitter between a tenth below and a tenth above zero. -/
def jitter (x : UInt64) : Float :=
  unitFloat x * (0.1 - (-0.1)) + (-0.1)

/-- The number of items of a context's batches, and the source after it is drawn. -/
def drawCount (c : Context) : Nat × Random.Source :=
  let source := Random.Source.ofSeed (seed c)
  (source.uniform? .bits32 Contract.minItems Contract.maxItems).getD (Contract.minItems, source)

/-- The next `n` jitters of a source. -/
def drawJitters : Nat → Random.Source → List Float
  | 0, _ => []
  | n + 1, source => jitter source.next64.1 :: drawJitters n source.next64.2

/-- The jitters of a context's items, in the order of their indices. -/
def jitters (c : Context) : List Float :=
  drawJitters (drawCount c).1 (drawCount c).2

/-- The score of the item at an index. -/
def score (c : Context) (revision : UInt32) (index : Nat) (jitter : Float) : Score :=
  .ofFloat (Score.confine ((base c index + boost c.refinement) * multiplier revision + jitter))

/-- The name of an item: its subject, its number from 1 and its revision. -/
def itemId (subjectId : String) (number : Nat) (revision : UInt32) : String :=
  "item_" ++ subjectId ++ "_" ++ toString number ++ "_r" ++ toString revision.toNat

/-- The item at an index. -/
def item (c : Context) (revision : UInt32) (index : Nat) (jitter : Float) : Item where
  subjectId := c.subjectId
  itemId := itemId c.subjectId (index + 1) revision
  score := score c revision index jitter

/-- A context's items in the order of their indices. -/
def items (c : Context) (revision : UInt32) : List Item :=
  (jitters c).zipIdx.map fun entry => item c revision entry.2 entry.1

/-- The better score first; equal ones stay in the order in which they are. -/
def byFallingScore (a b : Item) : Bool :=
  b.score.rank ≤ a.score.rank

/-- The batch of the hash ranker. -/
def batch (c : Context) (revision : UInt32) : Batch where
  items := (items c revision).mergeSort byFallingScore
  revision := revision

@[simp] theorem length_drawJitters (n : Nat) (source : Random.Source) :
    (drawJitters n source).length = n := by
  induction n generalizing source with
  | zero => rfl
  | succ n ih => simp [drawJitters, ih]

@[simp] theorem length_items (c : Context) (revision : UInt32) :
    (items c revision).length = (drawCount c).1 := by
  simp [items, jitters]

end Ranking

/-- The ranker that scores by hash. -/
def Ranker.hash : Ranker := Ranking.batch

/-- The ranker that finds nothing. -/
def Ranker.nothing : Ranker := fun _ revision => { items := [], revision }

/-- The ranker that answers with what it was asked: one item that names query and refinement, with
the revision as its score. -/
def Ranker.echo : Ranker := fun c revision =>
  { items := [{ subjectId := c.subjectId
                itemId := c.query ++ "|" ++ c.refinement
                score := .ofFloat revision.toFloat }]
    revision }

end ProgressiveSearch
