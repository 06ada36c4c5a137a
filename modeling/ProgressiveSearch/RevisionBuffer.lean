import ProgressiveSearch.Message

/-!
# The revision buffer

The batches that a client has received, each stored under its revision, in ascending order of
revisions. A batch with a revision that is already there takes the place of the older one, and
nothing is ever removed. The latest batch is the one under the highest revision, whatever came last.
-/
namespace ProgressiveSearch

/-- A batch and the revision under which it is stored. -/
structure RevisionBuffer.Entry where
  revision : UInt32
  batch : Batch
  deriving DecidableEq, Repr

/-- The batches received, in ascending order of the revisions under which they are stored. -/
structure RevisionBuffer where
  entries : List RevisionBuffer.Entry
  deriving DecidableEq, Repr

namespace RevisionBuffer

/-- A batch under its own revision. -/
def Entry.of (b : Batch) : Entry := ⟨b.revision, b⟩

/-- The buffer before any batch. -/
def empty : RevisionBuffer := ⟨[]⟩

instance : Inhabited RevisionBuffer := ⟨empty⟩
instance : EmptyCollection RevisionBuffer := ⟨empty⟩

/-- Puts an entry at its place among entries in ascending order of revisions. The batch that was
stored under its revision comes out, if there was one. -/
def put (e : Entry) : List Entry → Option Batch × List Entry
  | [] => (none, [e])
  | x :: rest =>
    if e.revision < x.revision then (none, e :: x :: rest)
    else if e.revision = x.revision then (some x.batch, e :: rest)
    else (put e rest).map id (x :: ·)

/-- Stores a batch under its revision. The batch that it replaces comes out, if there is one. -/
def store (buffer : RevisionBuffer) (b : Batch) : Option Batch × RevisionBuffer :=
  (put (.of b) buffer.entries).map id .mk

/-- The buffer after a batch has been stored. -/
def insert (buffer : RevisionBuffer) (b : Batch) : RevisionBuffer := (buffer.store b).2

/-- The batch that comes out when a batch is stored. -/
def replaced? (buffer : RevisionBuffer) (b : Batch) : Option Batch := (buffer.store b).1

/-- The batch that is stored under a revision. -/
def get? (buffer : RevisionBuffer) (revision : UInt32) : Option Batch :=
  (buffer.entries.find? (·.revision = revision)).map Entry.batch

/-- The batch under the highest revision. -/
def latest? (buffer : RevisionBuffer) : Option Batch :=
  buffer.entries.getLast?.map Entry.batch

/-- Takes the batch under the highest revision out, and leaves the others. -/
def takeLatest? (buffer : RevisionBuffer) : Option (Batch × RevisionBuffer) :=
  buffer.entries.getLast?.map fun e => (e.batch, ⟨buffer.entries.dropLast⟩)

/-- The highest revision. -/
def highest? (buffer : RevisionBuffer) : Option UInt32 :=
  buffer.entries.getLast?.map Entry.revision

/-- The revisions, in ascending order. -/
def revisions (buffer : RevisionBuffer) : List UInt32 :=
  buffer.entries.map Entry.revision

/-- The batches, in ascending order of their revisions. -/
def batches (buffer : RevisionBuffer) : List Batch :=
  buffer.entries.map Entry.batch

/-- The number of revisions. -/
def size (buffer : RevisionBuffer) : Nat :=
  buffer.entries.length

/-- No batch has been stored. -/
def isEmpty (buffer : RevisionBuffer) : Bool :=
  buffer.entries.isEmpty

/-- The buffer after batches have been stored one after the other. -/
def ofList (history : List Batch) : RevisionBuffer :=
  history.foldl insert empty

@[simp] theorem length_revisions (buffer : RevisionBuffer) :
    buffer.revisions.length = buffer.size := by
  simp [revisions, size]

theorem ofList_concat (history : List Batch) (b : Batch) :
    ofList (history ++ [b]) = (ofList history).insert b := by
  simp [ofList]

end RevisionBuffer

end ProgressiveSearch
