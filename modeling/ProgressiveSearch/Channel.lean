import ProgressiveSearch.Word

/-!
# Channels

A channel is a first-in, first-out queue with room for a fixed number of values and two ends. Either
end may go away for good. What is queued can still be received after the sender is gone; once the
receiver is gone nothing is queued any more, and what was queued is lost.
-/
namespace ProgressiveSearch

/-- A bounded queue between a sender and a receiver. -/
structure Channel (α : Type) where
  capacity : Nat
  queue : List α
  senderGone : Bool
  receiverGone : Bool
  deriving Repr

namespace Channel

variable {α : Type}

/-- The largest capacity that a channel can be made with. -/
def maxCapacity : Nat := Word.max64 / 8

/-- A channel with room for `capacity` values, both ends in place. -/
def ofCapacity (capacity : Nat) : Channel α where
  capacity
  queue := []
  senderGone := false
  receiverGone := false

/-- A channel can be made with this capacity: it has room for something, and its room can be
counted. -/
def isPossible (capacity : Nat) : Bool :=
  0 < capacity && capacity ≤ maxCapacity

/-- There is room for one more value. -/
def hasRoom (c : Channel α) : Bool :=
  c.queue.length < c.capacity

/-- Queues a value, whether there is room or not. -/
def put (c : Channel α) (a : α) : Channel α :=
  { c with queue := c.queue ++ [a] }

/-- Everything has been received and nothing more can come. -/
def isExhausted (c : Channel α) : Bool :=
  c.senderGone && c.queue.isEmpty

/-- The sender goes away. -/
def dropSender (c : Channel α) : Channel α :=
  { c with senderGone := true }

/-- The receiver goes away, and with it what is queued. -/
def dropReceiver (c : Channel α) : Channel α :=
  { c with receiverGone := true, queue := [] }

/-- What comes of an attempt to send without waiting. -/
inductive Sent where
  | ok
  | full
  | closed
  deriving DecidableEq, Repr

/-- Queues a value if the receiver is there and there is room. -/
def trySend (c : Channel α) (a : α) : Sent × Channel α :=
  if c.receiverGone then (.closed, c)
  else if c.hasRoom then (.ok, c.put a)
  else (.full, c)

/-- Queues a value if it can be, and forgets it otherwise. -/
def offer (c : Channel α) (a : α) : Channel α :=
  (c.trySend a).2

/-- What comes of an attempt to receive without waiting. -/
inductive Received (α : Type) where
  | value (a : α)
  | empty
  | closed
  deriving DecidableEq, Repr

/-- Takes the oldest value. -/
def tryReceive (c : Channel α) : Received α × Channel α :=
  match c.queue with
  | a :: rest => (.value a, { c with queue := rest })
  | [] => (if c.senderGone then .closed else .empty, c)

/-- Takes all values there are, and then tells why there are no more. -/
def drain (c : Channel α) : List (Received α) × Channel α :=
  (c.queue.map .value ++ [if c.senderGone then .closed else .empty], { c with queue := [] })

end Channel

end ProgressiveSearch
