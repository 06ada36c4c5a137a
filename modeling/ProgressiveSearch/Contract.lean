import ProgressiveSearch.Time.Duration

/-!
# The timing contract

Delays and revisions on which both sides of a call have to agree, whoever wrote them.
-/
namespace ProgressiveSearch.Contract

/-- The pause between the two contexts of a call, counted from the first send. -/
def contextDelay : Duration := .ofMillis 50

/-- The pause between the second context and the deferred revision. -/
def finalDelay : Duration := .ofMillis 50

/-- The shortest decision timeout. -/
def decisionMin : Duration := .ofMillis 30

/-- The longest decision timeout. -/
def decisionMax : Duration := .ofMillis 120

/-- How long a session waits for its next context. -/
def idleTimeout : Duration := .ofSeconds 5

/-- How long a client waits for a connection or for a stream to open. -/
def connectTimeout : Duration := .ofSeconds 1

/-- How long a service that stops lets its sessions go on. -/
def shutdownTimeout : Duration := .ofSeconds 3

/-- How many answers of a session can wait to be sent. -/
def streamBufferSize : Nat := 8

/-- The revision of the answer to the first context. -/
def firstRevision : UInt32 := 1

/-- The revision of the deferred answer, the last one of a call. -/
def finalRevision : UInt32 := 3

/-- The fewest items of a ranked batch. -/
def minItems : Nat := 5

/-- The most items of a ranked batch. -/
def maxItems : Nat := 10

/-- A revision that a call is meant to use. -/
def inRange (revision : UInt32) : Bool :=
  firstRevision ≤ revision && revision ≤ finalRevision

end ProgressiveSearch.Contract
