import ProgressiveSearch.Exchange.Receive

/-!
# The caller of an exchange

The caller's steps. While it waits for a moment it looks first whether the call was given up, then
whether the receiver has ended, then at the clock; while it waits for room it looks at nothing else.
However the call ends, the caller stops the receiver, waits until the replies are let go, and only
then selects the batch of the highest revision.
-/
namespace ProgressiveSearch.Exchange

/-- What ends a wait. -/
inductive Wake where
  | cancelled
  | received (ending : ReceiveEnd)
  | elapsed
  deriving DecidableEq, Repr

/-- The first thing that ends a wait for a moment. -/
def wake? (x : Exchange) (now deadline : Instant) : Option Wake :=
  if x.cancelled then some .cancelled
  else
    match x.receiver with
    | .over ending => some (.received ending)
    | .absent | .reading => if deadline ≤ now then some .elapsed else none

/-- Ends the call: the receiver is told to stop. -/
def release (x : Exchange) (termination : Termination) : Exchange :=
  { x with stage := .releasing termination, stopping := true }

/-- The client lets go of the requests. -/
def closeRequests (x : Exchange) : Exchange :=
  { x with stream := { x.stream with requests := x.stream.requests.dropSender } }

/-- Breaks down. The receiver is left to itself. -/
def breakDown (x : Exchange) : Exchange :=
  { x.closeRequests with stage := .brokenDown }

/-- Announces the call. -/
def announce (x : Exchange) (now : Instant) : Exchange :=
  { x with
    startedAt := now
    stage := .offeringFirst
    journal := x.journal ++ [.starting x.request, .sendingFirst] }

/-- Queues a context if there is room for it; `none` means that it has to wait. -/
def offer? (x : Exchange) (c : Context) : Option (Bool × Exchange) :=
  if x.stream.requests.receiverGone then some (false, x)
  else if x.stream.requests.hasRoom then
    let requests := x.stream.requests.put (.context c)
    some (true, { x with stream := { x.stream with requests } })
  else none

/-- Queues the first context if it can be. -/
def offerFirst? (x : Exchange) (now : Instant) : Option Exchange :=
  (x.offer? x.request.firstContext).map fun (sent, x) =>
    { x with firstSent := if sent then some now else none, stage := .resuming }

/-- Starts the receiver, and waits for the moment of the second context if the first was sent. -/
def resume (x : Exchange) : Exchange :=
  let x := { x with receiver := .reading }
  match x.firstSent with
  | none => x.release .sendFailed
  | some sent =>
    match sent.after? x.params.contextDelay with
    | none => x.breakDown
    | some deadline => { x with stage := .pausing deadline }

/-- Announces the second context. -/
def startSecond (x : Exchange) (now : Instant) : Exchange :=
  { x.record (.sendingSecond x.request.refinement (x.elapsed now)) with stage := .offeringSecond }

/-- Half-closes the stream and draws the decision timeout. -/
def decide (x : Exchange) (now : Instant) : Exchange :=
  let x := x.closeRequests.record (.halfClosed (x.elapsed now))
  match x.params.window.sample? x.source with
  | none => x.breakDown
  | some (timeout, source) =>
    let x := { x.record (.drew timeout x.params.window) with drawn := some timeout, source }
    match now.after? timeout with
    | none => x.breakDown
    | some deadline => { x with stage := .deciding deadline }

/-- Queues the second context if it can be. -/
def offerSecond? (x : Exchange) (now : Instant) : Option Exchange :=
  (x.offer? x.request.secondContext).map fun (sent, x) =>
    if sent then x.decide now else x.release .sendFailed

/-- What is selected from the buffer. -/
def outcome (x : Exchange) (now : Instant) (termination : Termination) : Outcome where
  selected := x.buffer.latest?
  revisions := x.buffer.revisions
  decisionTimeout := x.drawn
  termination
  elapsed := x.elapsed now

/-- The event that reports an outcome. -/
def verdict (o : Outcome) : Event :=
  match o.selected with
  | some b => .selected b.revision b.items.length o.termination o.elapsed o.revisions.length
  | none => .nothingSelected o.termination o.elapsed

/-- Selects, and returns. -/
def conclude (x : Exchange) (now : Instant) (termination : Termination) : Exchange :=
  let o := x.outcome now termination
  { x.closeRequests.record (verdict o) with stage := .over o }

/-- One step of the caller, or `none` while it waits and when it is over. -/
def call (now : Instant) (x : Exchange) : Option Exchange :=
  match x.stage with
  | .starting => some (x.announce now)
  | .offeringFirst => x.offerFirst? now
  | .resuming => some x.resume
  | .pausing deadline =>
    (x.wake? now deadline).map fun
      | .cancelled => x.release .cancelled
      | .received ending => x.release ending.termination
      | .elapsed => x.startSecond now
  | .offeringSecond => x.offerSecond? now
  | .deciding deadline =>
    (x.wake? now deadline).map fun
      | .cancelled => x.release .cancelled
      | .received ending => x.release ending.termination
      | .elapsed => x.release .decisionTimeout
  | .releasing termination =>
    match x.receiver with
    | .over _ => some (x.conclude now termination)
    | .absent | .reading => none
  | .over _ | .brokenDown => none

/-- The moment at which a waiting caller goes on by itself. -/
def wakesAt (x : Exchange) : Option Instant :=
  match x.stage with
  | .pausing deadline | .deciding deadline => some deadline
  | _ => none

/-- A bound on the number of steps that either task can take before it waits for more replies. -/
def workLeft (x : Exchange) : Nat := x.stream.replies.queue.length + 16

end ProgressiveSearch.Exchange
