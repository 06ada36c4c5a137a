import ProgressiveSearch.Status

/-!
# Failures

What can go wrong with a connection, a call or a session. Each failure has a sentence that reports
it and a status that tells the other side. The hard ones must reach whoever made the call; the
others are absorbed into an outcome without result.
-/
namespace ProgressiveSearch

/-- Why a connection, a call or a session failed. -/
inductive Failure where
  /-- No connection to the endpoint could be made. -/
  | connect (endpoint reason : String)
  /-- The connection stands, but the call was refused or not opened in time. -/
  | streamOpen (status : Status)
  /-- Two tasks on the same side lost each other. -/
  | channel (context : String)
  /-- Whoever should read the answers is gone. -/
  | peerGone
  /-- The other side broke the order of messages. -/
  | protocolViolation (reason : String)
  /-- The stream broke after it was opened. -/
  | transport (status : Status)
  /-- The service is shutting down. -/
  | shutdown
  deriving DecidableEq, Repr

namespace Failure

/-- The sentence that reports a failure. -/
def message : Failure → String
  | .connect endpoint reason => "Failed to connect to " ++ endpoint ++ ": " ++ reason
  | .streamOpen status => "Failed to open stream: " ++ status.text
  | .channel context => "Channel error: " ++ context
  | .peerGone => "Peer disconnected"
  | .protocolViolation reason => "Protocol violation: " ++ reason
  | .transport status => "Transport error: " ++ status.text
  | .shutdown => "Service is shutting down"

/-- A failure that must reach the caller. -/
def isHard : Failure → Bool
  | .connect .. | .streamOpen _ | .protocolViolation _ => true
  | _ => false

/-- The status that tells the other side. -/
def status : Failure → Status
  | .connect endpoint reason =>
    .of .unavailable ("Connect to " ++ endpoint ++ " failed: " ++ reason)
  | .streamOpen status => status
  | .channel context => .of .internal ("Channel error: " ++ context)
  | .peerGone => .of .cancelled "Peer disconnected"
  | .protocolViolation reason => .of .invalidArgument reason
  | .transport status => status
  | .shutdown => .of .unavailable "Service is shutting down"

end Failure

end ProgressiveSearch
