import ProgressiveSearch.Contract
import ProgressiveSearch.Ranking
import ProgressiveSearch.Session.Event
import ProgressiveSearch.Stream
import ProgressiveSearch.Time.Instant
import ProgressiveSearch.Word

/-!
# Sessions

A session answers one call. It owns the service's side of a stream and goes through these phases:

* awaiting the first context, which is answered at once by revision 1;
* awaiting the second context, which is answered at once by revision 2;
* awaiting the final moment, a fixed delay after the second context, at which revision 3 is sent;
* closed.

Between two arrivals a session either selects the next thing to react to or waits for room to send a
batch. It ends with a report, with a failure, or by breaking down.
-/
namespace ProgressiveSearch

namespace Session

/-- The delays of a session, and whether a third context is refused. -/
structure Config where
  /-- From the arrival of the second context to the deferred revision. -/
  finalDelay : Duration
  /-- How long the next context may take. -/
  idleTimeout : Duration
  /-- A third context aborts the call instead of being ignored. -/
  strict : Bool
  deriving DecidableEq, Repr

/-- The configuration of the timing contract. -/
def Config.standard : Config where
  finalDelay := Contract.finalDelay
  idleTimeout := Contract.idleTimeout
  strict := false

/-- What a session is waiting for. -/
inductive Phase where
  | awaitingFirst
  | awaitingSecond
  | awaitingFinal (deadline : Instant)
  | closed
  deriving DecidableEq, Repr

/-- A phase in which the next context is due. -/
def Phase.awaitsContext : Phase → Bool
  | .awaitingFirst | .awaitingSecond => true
  | .awaitingFinal _ | .closed => false

/-- The book that a session keeps of its call. Its counters are words of thirty-two bits. -/
structure Tally where
  id : Nat
  startedAt : Instant
  requestsSeen : Nat
  extraRequests : Nat
  batchesSent : Nat
  deriving DecidableEq, Repr

/-- The book of a call that begins. -/
def Tally.begin (id : Nat) (startedAt : Instant) : Tally where
  id
  startedAt
  requestsSeen := 0
  extraRequests := 0
  batchesSent := 0

/-- The last entry in the book of a session that did not fail. -/
structure Report where
  tally : Tally
  ending : Ending
  deriving DecidableEq, Repr

/-- How a session is over. -/
inductive Result where
  | reported (report : Report)
  | failed (failure : Failure)
  /-- A moment lies beyond the horizon of the clock. -/
  | brokenDown
  deriving DecidableEq, Repr

/-- A batch on its way to the channel of replies, and the context that it answers. -/
structure Delivery where
  batch : Batch
  context : Context
  /-- When the context was read. -/
  receivedAt : Instant
  deriving DecidableEq, Repr

/-- What a session is doing. -/
inductive Activity where
  /-- It has not looked at the clock yet. -/
  | entering
  /-- It looks for something to react to. -/
  | selecting
  /-- It waits for room for a batch, and looks at nothing else. -/
  | delivering (delivery : Delivery)
  | over (result : Result)
  deriving DecidableEq, Repr

end Session

/-- A session at its stream. -/
structure Session where
  config : Session.Config
  ranker : Ranker
  tally : Session.Tally
  phase : Session.Phase
  /-- The client has not half-closed yet, as far as the session knows. -/
  requestsOpen : Bool
  /-- The context that the deferred revision will answer. -/
  lastContext : Option Context
  idleDeadline : Instant
  activity : Session.Activity
  stream : Stream
  /-- What has happened, the oldest first. -/
  journal : List Session.Event

namespace Session

/-- A session that begins its call. -/
def enter (config : Config) (ranker : Ranker) (tally : Tally) (stream : Stream) : Session where
  config
  ranker
  tally
  phase := .awaitingFirst
  requestsOpen := true
  lastContext := none
  idleDeadline := tally.startedAt
  activity := .entering
  stream
  journal := []

/-- The result of a session that is over. -/
def result? (s : Session) : Option Result :=
  match s.activity with
  | .over result => some result
  | _ => none

/-- The session is over. -/
def isOver (s : Session) : Bool := s.result?.isSome

/-- The time since the call began. -/
def elapsed (s : Session) (now : Instant) : Duration := s.tally.startedAt.elapsed now

/-- The revisions that the ranker was asked for, in order. -/
def ranked (s : Session) : List UInt32 := s.journal.filterMap Event.ranked?

/-- The revision that answers the context at hand. -/
def dueRevision (s : Session) : UInt32 :=
  match s.phase with
  | .awaitingFirst => Contract.firstRevision
  | .awaitingSecond => Contract.firstRevision + 1
  | .awaitingFinal _ | .closed => Contract.finalRevision

end Session

end ProgressiveSearch
