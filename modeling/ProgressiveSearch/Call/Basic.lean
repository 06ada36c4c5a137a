import ProgressiveSearch.Exchange.Basic
import ProgressiveSearch.Failure

/-!
# Calls

A call is an exchange whose stream has to be opened first. The first context is queued before the
far end is asked to open the stream, so that a far end that reads a context before it answers can do
so. The far end opens the stream, refuses the call, or says nothing; it may take a bounded time.
Only a call whose stream is not opened fails: what goes wrong later shows in the outcome.
-/
namespace ProgressiveSearch

namespace Call

/-- What the far end says to a call. -/
inductive Reception where
  | opened
  | refused (status : Status)
  deriving DecidableEq, Repr

/-- How a call is over. -/
inductive Result where
  | outcome (o : Exchange.Outcome)
  | failed (failure : Failure)
  /-- The exchange broke down. -/
  | brokenDown
  deriving DecidableEq, Repr

/-- How far a call has come. -/
inductive Stage where
  /-- It has not been made yet. -/
  | prepared
  | starting
  /-- The far end has been asked to open the stream. -/
  | opening (giveUp : Instant)
  /-- The stream is open. -/
  | exchanging
  /-- The stream was not opened. -/
  | closed (result : Result)
  deriving DecidableEq, Repr

/-- The room for contexts that have not been sent. -/
def requestCapacity : Nat := 2

end Call

/-- A call, from the client's side. -/
structure Call where
  /-- How long the far end may take to open the stream. -/
  connectTimeout : Duration
  exchange : Exchange
  stage : Call.Stage
  reception : Option Call.Reception

namespace Call

/-- A call that has not been made. The room for replies is the far end's affair. -/
def prepare (connectTimeout : Duration) (request : Request) (params : Exchange.Params)
    (source : Random.Source) : Call where
  connectTimeout
  exchange := .prepare request params source (.ofCapacities requestCapacity 1)
  stage := .prepared
  reception := none

/-- Makes the call. -/
def start (c : Call) : Call := { c with stage := .starting }

/-- The caller gives the call up. -/
def cancel (c : Call) : Call := { c with exchange := c.exchange.cancel }

/-- The call has been made. -/
def isStarted (c : Call) : Bool := c.stage ≠ .prepared

/-- The far end has been asked to open the stream and has not answered. -/
def awaitsReception (c : Call) : Bool :=
  match c.stage, c.reception with
  | .opening _, none => true
  | _, _ => false

/-- The far end answers. -/
def receive (c : Call) (reception : Reception) : Call :=
  { c with reception := some reception }

/-- Replaces the stream. -/
def withStream (c : Call) (stream : Stream) : Call :=
  { c with exchange := { c.exchange with stream } }

/-- The result of a call that is over. -/
def result? (c : Call) : Option Result :=
  match c.stage with
  | .closed result => some result
  | .exchanging =>
    match c.exchange.stage with
    | .over outcome => some (.outcome outcome)
    | .brokenDown => some .brokenDown
    | _ => none
  | .prepared | .starting | .opening _ => none

end Call

end ProgressiveSearch
