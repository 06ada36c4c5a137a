import ProgressiveSearch.Exchange.Event
import ProgressiveSearch.RevisionBuffer
import ProgressiveSearch.Stream
import ProgressiveSearch.Time.Instant

/-!
# Exchanges

An exchange is the client's side of one call. Two tasks share it. The **caller** sends the first
context, waits for the context delay, sends the second one, half-closes, draws a decision timeout
and waits for it; then it stops the other task and selects. The **receiver** stores every batch that
comes in, until it is stopped or the stream ends. Each wait of the caller is cut short when the call
is given up or when the receiver has come to its end.
-/
namespace ProgressiveSearch

namespace Exchange

/-- How the receiver came to its end. -/
inductive ReceiveEnd where
  /-- The service closed its side. -/
  | completed
  /-- The stream failed. -/
  | failed (code : Code)
  /-- It was stopped, or it broke down without a word. -/
  | stopped
  deriving DecidableEq, Repr

/-- Why the call ends when the receiver comes to its end first. -/
def ReceiveEnd.termination : ReceiveEnd → Termination
  | .completed => .serverClosed
  | .failed code => .streamFailed code
  | .stopped => .cancelled

/-- The state of the receiver. -/
inductive Receiver where
  | absent
  | reading
  | over (ending : ReceiveEnd)
  deriving DecidableEq, Repr

/-- The state of the caller. -/
inductive Stage where
  /-- It has done nothing yet. -/
  | starting
  /-- It waits for room for the first context. -/
  | offeringFirst
  /-- It is done with the first context, sent or not. -/
  | resuming
  /-- It waits for the moment of the second context. -/
  | pausing (deadline : Instant)
  /-- It waits for room for the second context. -/
  | offeringSecond
  /-- It waits for the moment of the decision. -/
  | deciding (deadline : Instant)
  /-- It waits for the receiver to let go of the stream. -/
  | releasing (termination : Termination)
  | over (outcome : Outcome)
  /-- A moment lies beyond the horizon of the clock, or there is no timeout to draw. -/
  | brokenDown
  deriving DecidableEq, Repr

end Exchange

/-- The client's side of a call. -/
structure Exchange where
  request : Request
  params : Exchange.Params
  /-- Where the decision timeout is drawn. -/
  source : Random.Source
  startedAt : Instant
  /-- When the first context was queued. -/
  firstSent : Option Instant
  stage : Exchange.Stage
  receiver : Exchange.Receiver
  /-- The caller has given the call up. -/
  cancelled : Bool
  /-- The receiver has been told to stop. -/
  stopping : Bool
  buffer : RevisionBuffer
  /-- The decision timeout drawn. -/
  drawn : Option Duration
  stream : Stream
  /-- What has happened, the oldest first. -/
  journal : List Exchange.Event

namespace Exchange

/-- An exchange that has not started. -/
def prepare (request : Request) (params : Params) (source : Random.Source) (stream : Stream) :
    Exchange where
  request
  params
  source
  startedAt := .start
  firstSent := none
  stage := .starting
  receiver := .absent
  cancelled := false
  stopping := false
  buffer := .empty
  drawn := none
  stream
  journal := []

/-- The outcome of an exchange that is over. -/
def outcome? (x : Exchange) : Option Outcome :=
  match x.stage with
  | .over outcome => some outcome
  | _ => none

/-- The time since the call began. -/
def elapsed (x : Exchange) (now : Instant) : Duration := x.startedAt.elapsed now

/-- Adds an event to the journal. -/
def record (x : Exchange) (e : Event) : Exchange :=
  { x with journal := x.journal ++ [e] }

/-- The caller gives the call up. -/
def cancel (x : Exchange) : Exchange := { x with cancelled := true }

end Exchange

end ProgressiveSearch
