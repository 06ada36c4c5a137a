import ProgressiveSearch.Service.Event
import ProgressiveSearch.Session.Basic

/-!
# Services

A service accepts calls, numbers their sessions from one, and counts those that are in flight. When
it is asked to stop it goes through these phases:

* draining: no call is accepted, and sessions may come to their own end for a bounded time;
* cancelling: the sessions that are left are told to stop, and are waited for once more;
* stopped.

Whether sessions are left is looked up at a fixed pace, at the beginning of a phase for the first
time.
-/
namespace ProgressiveSearch

namespace Service

/-- How a service treats its calls. -/
structure Config where
  /-- How many replies of a session can wait to be sent. -/
  streamBufferSize : Nat
  /-- How long the sessions in flight may go on when the service stops. -/
  shutdownTimeout : Duration
  session : Session.Config
  deriving DecidableEq, Repr

/-- The configuration of the timing contract. -/
def Config.standard : Config where
  streamBufferSize := Contract.streamBufferSize
  shutdownTimeout := Contract.shutdownTimeout
  session := .standard

/-- How long sessions that were told to stop are waited for. -/
def cancelTimeout : Duration := .ofSeconds 1

/-- The time between two looks at the sessions that are left. -/
def pace : Duration := .ofMillis 10

/-- How far a service has come in stopping. -/
inductive Phase where
  | serving
  /-- It has been asked to stop, and has not started to. -/
  | asked
  | draining (giveUp nextLook : Instant)
  | cancelling (giveUp nextLook : Instant)
  | stopped
  deriving DecidableEq, Repr

end Service

/-- A service and its sessions. -/
structure Service where
  config : Service.Config
  ranker : Ranker
  /-- The number of calls let in so far, which is the number of the last of them. -/
  admitted : Nat
  /-- The sessions of the calls let in, the first one first. -/
  sessions : List Session
  /-- How many sessions are counted as not over. -/
  inFlight : Nat
  phase : Service.Phase
  /-- What has happened, the oldest first. -/
  journal : List Service.Event

namespace Service

/-- A service that has not accepted a call yet. -/
def idle (config : Config) (ranker : Ranker) : Service where
  config
  ranker
  admitted := 0
  sessions := []
  inFlight := 0
  phase := .serving
  journal := []

/-- No more calls are accepted. -/
def isDraining (s : Service) : Bool :=
  match s.phase with
  | .serving | .asked => false
  | .draining .. | .cancelling .. | .stopped => true

/-- The sessions have been told to stop. -/
def isCancelling (s : Service) : Bool :=
  match s.phase with
  | .serving | .asked | .draining .. => false
  | .cancelling .. | .stopped => true

/-- Adds an event to the journal. -/
def record (s : Service) (e : Event) : Service :=
  { s with journal := s.journal ++ [e] }

/-- The session in a place. -/
def session? (s : Service) (place : Nat) : Option Session := s.sessions[place]?

/-- Replaces the stream of the session in a place. -/
def withStream (s : Service) (place : Nat) (stream : Stream) : Service :=
  { s with sessions := s.sessions.modify place fun session => { session with stream } }

/-- What becomes of a call. -/
inductive Admission where
  /-- It has a session, the last one of the service. -/
  | accepted (s : Service)
  /-- The service is stopping, and tells the caller so. -/
  | refused (status : Status)
  /-- It was let in, but no channel of replies can be made with the configured capacity. -/
  | brokenDown (s : Service)

/-- Lets a call in, and notes that it is open. -/
def letIn (s : Service) : Service :=
  { s.record (.opened (s.admitted + 1)) with admitted := s.admitted + 1 }

/-- Accepts a call, whose requests arrive on a given channel. -/
def accept (s : Service) (now : Instant) (requests : Channel Arrival) : Admission :=
  if s.isDraining then .refused Failure.shutdown.status
  else
    let s := s.letIn
    if Channel.isPossible s.config.streamBufferSize then
      let stream : Stream := { requests, replies := .ofCapacity s.config.streamBufferSize }
      let session := Session.enter s.config.session s.ranker (.begin s.admitted now) stream
      .accepted { s with sessions := s.sessions ++ [session], inFlight := s.inFlight + 1 }
    else .brokenDown s

/-- Asks the service to stop. -/
def stop (s : Service) : Service :=
  match s.phase with
  | .serving => { s with phase := .asked }
  | _ => s

end Service

end ProgressiveSearch
