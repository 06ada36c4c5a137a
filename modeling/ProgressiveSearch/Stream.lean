import ProgressiveSearch.Channel
import ProgressiveSearch.Message
import ProgressiveSearch.Status

/-!
# Streams

A call runs over a bidirectional stream: a channel of requests from the client to the service and a
channel of replies back. The client half-closes a stream by dropping the sender of its requests.
-/
namespace ProgressiveSearch

/-- What arrives on the request side. -/
inductive Arrival where
  | context (c : Context)
  /-- The stream failed with a status. -/
  | failed (s : Status)
  deriving DecidableEq, Repr

/-- What arrives on the reply side. -/
inductive Reply where
  | batch (b : Batch)
  /-- The call ends with a status. -/
  | failed (s : Status)
  /-- Whoever reads this breaks down. -/
  | fault
  deriving DecidableEq, Repr

/-- The two directions of a call. -/
structure Stream where
  requests : Channel Arrival
  replies : Channel Reply

namespace Stream

/-- A stream with channels of these capacities. -/
def ofCapacities (requestCapacity replyCapacity : Nat) : Stream where
  requests := .ofCapacity requestCapacity
  replies := .ofCapacity replyCapacity

/-- A stream with channels of these capacities, if such channels can be made. -/
def ofCapacities? (requestCapacity replyCapacity : Nat) : Option Stream :=
  if Channel.isPossible requestCapacity && Channel.isPossible replyCapacity then
    some (.ofCapacities requestCapacity replyCapacity)
  else none

/-- The service's side lets go of the stream: it reads no more requests and sends no more replies.
-/
def leaveService (s : Stream) : Stream where
  requests := s.requests.dropReceiver
  replies := s.replies.dropSender

end Stream

end ProgressiveSearch
