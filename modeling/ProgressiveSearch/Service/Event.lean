import ProgressiveSearch.Session.Event

/-!
# What a service reports

The events of a service that concern more than one session, or the beginning and the end of one,
and the log entry that each of them becomes.
-/
namespace ProgressiveSearch.Service

/-- What happens in a service. Sessions are numbered from one. -/
inductive Event where
  /-- A call was accepted, and its session begins. -/
  | opened (id : Nat)
  /-- Something happened in a session. -/
  | session (id : Nat) (event : Session.Event)
  /-- A session ended with a failure. -/
  | aborted (id : Nat) (failure : Failure)
  | refusing
  | draining (active : Nat)
  | drained
  | drainTimedOut (active : Nat)
  /-- Sessions that were told to stop are still there. -/
  | unstopped (active : Nat)
  | stopped
  deriving DecidableEq, Repr

namespace Event

open Log (Field)

/-- The entry of the service itself, apart from its sessions. -/
def own (level : Log.Level) (message : String) (fields : List Field) : Log.Entry where
  level
  origin := .service
  message
  fields

/-- The log entry of an event. No address is known of the side that opened a call. -/
def entry : Event → Log.Entry
  | .opened id =>
    own .info "New bidirectional stream opened"
      [.number "session_id" id, .plain "remote" "None"]
  | .session id event => event.entry id
  | .aborted id failure =>
    own .warn "Session aborted" [.number "session_id" id, .plain "error" failure.message]
  | .refusing => own .info "Refusing new sessions" []
  | .draining active =>
    own .info ("Draining in-flight sessions (" ++ toString active ++ " active)") []
  | .drained => own .debug "All in-flight sessions drained" []
  | .drainTimedOut active =>
    own .warn ("Graceful drain timed out (" ++ toString active ++ " sessions still active)") []
  | .unstopped active => own .error (toString active ++ " sessions ignored cancellation") []
  | .stopped => own .info "Search service shutdown complete" []

/-- The revision that a ranker is asked for at an event. -/
def ranked? : Event → Option UInt32
  | .session _ event => event.ranked?
  | _ => none

/-- The session to which an event belongs, if it happens inside one. -/
def sessionId? : Event → Option Nat
  | .session id _ | .aborted id _ => some id
  | _ => none

end Event

end ProgressiveSearch.Service
