import ProgressiveSearch.Session.Basic

/-!
# The steps of a session

A session that selects looks, in this order, for: the service stopping, the reader of its replies
being gone, its final moment, its idle deadline, something on its requests. It reacts to the first
of these that it finds, and waits if it finds none. `step` is one such reaction, or the delivery of
a batch for which there is room; it is `none` while the session waits and when it is over.
-/
namespace ProgressiveSearch.Session

/-- Something that a session reacts to. -/
inductive Signal where
  | stopping
  | receiverGone
  | finalDue
  | idleDue
  | arrived (arrival : Arrival)
  | halfClosed
  deriving DecidableEq, Repr

/-- What is on the requests, as long as they are open. -/
def arrival? (s : Session) : Option Signal :=
  if s.requestsOpen then
    match s.stream.requests.queue with
    | a :: _ => some (.arrived a)
    | [] => if s.stream.requests.senderGone then some .halfClosed else none
  else none

/-- A timer of the phase at hand has gone off. -/
def timer? (now : Instant) (s : Session) : Option Signal :=
  match s.phase with
  | .awaitingFinal deadline => if deadline ≤ now then some .finalDue else none
  | .awaitingFirst | .awaitingSecond => if s.idleDeadline ≤ now then some .idleDue else none
  | .closed => none

/-- The first thing to react to. -/
def signal? (now : Instant) (stopping : Bool) (s : Session) : Option Signal :=
  if stopping then some .stopping
  else if s.stream.replies.receiverGone then some .receiverGone
  else (s.timer? now).or s.arrival?

/-! ## Ends -/

/-- Adds an event to the journal. -/
def record (s : Session) (e : Event) : Session :=
  { s with journal := s.journal ++ [e] }

/-- Leaves the stream with a result. -/
def leave (s : Session) (result : Result) : Session :=
  { s with phase := .closed, activity := .over result, stream := s.stream.leaveService }

/-- Ends without a failure. -/
def finish (s : Session) (now : Instant) (ending : Ending) : Session :=
  (s.record (.closed ending s.tally.requestsSeen s.tally.batchesSent (s.elapsed now))).leave
    (.reported ⟨s.tally, ending⟩)

/-- Ends with a failure. A deferred revision that was scheduled is called off. -/
def fail (s : Session) (failure : Failure) : Session :=
  match s.phase with
  | .awaitingFinal _ => (s.record (.deferredCancelled failure)).leave (.failed failure)
  | _ => s.leave (.failed failure)

/-- Ends because a moment cannot be named. -/
def breakDown (s : Session) : Session := s.leave .brokenDown

/-- Tells the client why the call is aborted, if there is room for it. -/
def sendStatus (s : Session) (status : Status) : Session :=
  { s with stream := { s.stream with replies := s.stream.replies.offer (.failed status) } }

/-! ## Batches -/

/-- The events that list the items of a batch. -/
def listing (revision : UInt32) (items : List Item) : List Event :=
  items.zipIdx.map fun entry => .listed revision entry.2 entry.1

/-- Ranks a context and starts to deliver the batch. -/
def startDelivery (s : Session) (now : Instant) (context : Context) : Session :=
  let revision := s.dueRevision
  let batch := s.ranker context revision
  { s with
    activity := .delivering ⟨batch, context, now⟩
    journal := s.journal ++
      .sending revision batch.items.length (s.elapsed now) :: listing revision batch.items }

/-- Goes on after a batch has been queued. Both deadlines are anchored at the arrival of the
context, whatever time ranking and waiting for room took. -/
def delivered (s : Session) (now : Instant) (d : Delivery) : Session :=
  let s := { s with
    activity := .selecting
    tally := { s.tally with batchesSent := Word.next32 s.tally.batchesSent } }
  match s.phase with
  | .awaitingFirst =>
    match d.receivedAt.after? s.config.idleTimeout with
    | none => s.breakDown
    | some deadline =>
      { s with phase := .awaitingSecond, lastContext := some d.context, idleDeadline := deadline }
  | .awaitingSecond =>
    match d.receivedAt.after? s.config.finalDelay with
    | none => s.breakDown
    | some deadline =>
      { s.record (.scheduled s.config.finalDelay) with
        phase := .awaitingFinal deadline
        lastContext := some d.context }
  | .awaitingFinal _ | .closed => s.finish now .completed

/-- Queues the batch if there is room for it. -/
def deliver? (s : Session) (now : Instant) (d : Delivery) : Option Session :=
  if s.stream.replies.receiverGone then
    some ((s.record (.sendFailed s.dueRevision)).fail .peerGone)
  else if s.stream.replies.hasRoom then
    let stream := { s.stream with replies := s.stream.replies.put (.batch d.batch) }
    some (delivered { s with stream } now d)
  else none

/-! ## Reactions -/

/-- Why a context is one too many. -/
def excessReason (number : Nat) : String :=
  "unexpected context #" ++ toString number ++ " (at most 2 per call)"

/-- Reacts to a context that comes after the second. -/
def excess (s : Session) : Session :=
  let number := s.tally.requestsSeen
  let s := { s with tally := { s.tally with extraRequests := Word.next32 s.tally.extraRequests } }
  if s.config.strict then
    let violation := Failure.protocolViolation (excessReason number)
    ((s.record (.rejected (excessReason number))).sendStatus violation.status).fail violation
  else s.record (.ignored number)

/-- Reacts to a context. -/
def onContext (s : Session) (now : Instant) (c : Context) : Session :=
  let number := Word.next32 s.tally.requestsSeen
  let s := { s with tally := { s.tally with requestsSeen := number } }
  let s := s.record (.received number c (s.elapsed now))
  if s.phase.awaitsContext then s.startDelivery now c else s.excess

/-- Reacts to the failure of the stream. -/
def onFailure (s : Session) (now : Instant) (status : Status) : Session :=
  let s := s.record (.streamFailed s.tally.requestsSeen status (s.elapsed now))
  (s.sendStatus status).fail (.transport status)

/-- Takes the oldest arrival off the requests. -/
def takeArrival (s : Session) : Session :=
  let requests := { s.stream.requests with queue := s.stream.requests.queue.tail }
  { s with stream := { s.stream with requests } }

/-- Reacts to a half-close. -/
def onHalfClose (s : Session) (now : Instant) : Session :=
  let s := { s with requestsOpen := false }
  let s := s.record (.halfClosed s.tally.requestsSeen (s.elapsed now))
  if s.phase.awaitsContext then s.finish now .halfClosedEarly else s

/-- Reacts to the final moment. -/
def onFinal (s : Session) (now : Instant) : Session :=
  match s.lastContext with
  | none => s.fail (.channel "deferred revision armed without a context")
  | some c => { s with lastContext := none }.startDelivery now c

/-- Reacts to a signal. -/
def react (s : Session) (now : Instant) : Signal → Session
  | .stopping => (s.sendStatus Failure.shutdown.status).fail .shutdown
  | .receiverGone => (s.record (.receiverGone s.tally.requestsSeen)).fail .peerGone
  | .finalDue => s.onFinal now
  | .idleDue => (s.record (.idle s.tally.requestsSeen s.config.idleTimeout)).finish now .idleTimeout
  | .arrived (.context c) => s.takeArrival.onContext now c
  | .arrived (.failed status) => s.takeArrival.onFailure now status
  | .halfClosed => s.onHalfClose now

/-- Sets the idle deadline and starts to select. -/
def begin (s : Session) (now : Instant) : Session :=
  match now.after? s.config.idleTimeout with
  | none => s.breakDown
  | some deadline => { s with idleDeadline := deadline, activity := .selecting }

/-- One step, or `none` while the session waits and when it is over. -/
def step (now : Instant) (stopping : Bool) (s : Session) : Option Session :=
  match s.activity with
  | .entering => some (s.begin now)
  | .selecting => (s.signal? now stopping).map (s.react now)
  | .delivering d => s.deliver? now d
  | .over _ => none

/-- The moment at which a waiting session goes on by itself. -/
def wakesAt (s : Session) : Option Instant :=
  match s.activity, s.phase with
  | .selecting, .awaitingFinal deadline => some deadline
  | .selecting, .awaitingFirst | .selecting, .awaitingSecond => some s.idleDeadline
  | _, _ => none

/-- A bound on the number of steps that a session can take before it waits for more arrivals: each
arrival costs at most two, and entering, half-closing and the final delivery a few more. -/
def workLeft (s : Session) : Nat :=
  4 * s.stream.requests.queue.length + 8

end ProgressiveSearch.Session
