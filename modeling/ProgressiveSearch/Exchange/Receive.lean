import ProgressiveSearch.Exchange.Basic

/-!
# The receiver of an exchange

The receiver takes replies in order and stores batches by revision. It notes a revision outside the
range of the protocol, and one that is lower than the highest so far, before it notes whether the
batch is new or takes the place of another. It ends at the first failure, when nothing more can
come, or as soon as it is told to stop.
-/
namespace ProgressiveSearch.Exchange

/-- What there is to note about a batch before it is stored in a buffer. -/
def notes (buffer : RevisionBuffer) (b : Batch) : List Event :=
  let outside := if Contract.inRange b.revision then [] else [Event.outsideRange b.revision]
  let late :=
    match buffer.highest? with
    | some highest => if b.revision < highest then [Event.outOfOrder b.revision highest] else []
    | none => []
  outside ++ late

/-- How a batch is stored in a buffer. -/
def stored (buffer : RevisionBuffer) (b : Batch) (elapsed : Duration) : Event :=
  match buffer.replaced? b with
  | some old => .replaced b.revision old.items.length b.items.length elapsed
  | none => .received b.revision b.items.length elapsed

/-- Stores a batch. -/
def store (x : Exchange) (now : Instant) (b : Batch) : Exchange :=
  { x with
    buffer := x.buffer.insert b
    journal := x.journal ++ notes x.buffer b ++ [stored x.buffer b (x.elapsed now)] }

/-- Ends the receiver, which lets go of the replies. -/
def endReceiver (x : Exchange) (ending : ReceiveEnd) : Exchange :=
  { x with
    receiver := .over ending
    stream := { x.stream with replies := x.stream.replies.dropReceiver } }

/-- Takes the oldest reply. -/
def takeReply (x : Exchange) : Exchange :=
  let replies := { x.stream.replies with queue := x.stream.replies.queue.tail }
  { x with stream := { x.stream with replies } }

/-- Reacts to a reply. -/
def onReply (x : Exchange) (now : Instant) : Reply → Exchange
  | .batch b => x.store now b
  | .failed status =>
    (x.record (.streamFailed status (x.elapsed now))).endReceiver (.failed status.code)
  | .fault => x.endReceiver .stopped

/-- One step of the receiver, or `none` while it waits and when it is over. -/
def receive (now : Instant) (x : Exchange) : Option Exchange :=
  match x.receiver with
  | .absent | .over _ => none
  | .reading =>
    if x.stopping then some (x.endReceiver .stopped)
    else
      match x.stream.replies.queue with
      | reply :: _ => some (x.takeReply.onReply now reply)
      | [] =>
        if x.stream.replies.senderGone then
          some ((x.record (.completed (x.elapsed now) x.buffer.size)).endReceiver .completed)
        else none

end ProgressiveSearch.Exchange
