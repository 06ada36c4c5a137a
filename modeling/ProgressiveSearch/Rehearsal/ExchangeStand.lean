import ProgressiveSearch.Exchange.Call
import ProgressiveSearch.Rehearsal.Script

/-!
# Rehearsing an exchange

The client's side of one call on its own: a script sends replies, reads contexts, gives the call up
and lets time pass.
-/
namespace ProgressiveSearch.Rehearsal

namespace ExchangeStand

/-- What a script does to an exchange. -/
inductive Act where
  /-- Sends the first context ahead of the start. -/
  | sendFirst
  | start
  | send (r : Reply)
  | close
  | receive
  | drain
  | dropReceiver
  | cancel
  | unknown
  deriving Inhabited

/-- The two tasks of an exchange. -/
inductive Role where
  | caller
  | receiver
  deriving DecidableEq

/-- An exchange, and what it sees of the world. -/
structure World where
  now : Instant
  started : Bool
  exchange : Exchange

/-- The caller and the receiver as tasks. -/
def tasks : Tasks World Role where
  all w :=
    if !w.started then []
    else if w.exchange.receiver = .absent then [.caller]
    else [.caller, .receiver]
  step role w :=
    (match role with
      | .caller => w.exchange.call w.now
      | .receiver => w.exchange.receive w.now).map fun exchange => { w with exchange }
  wakesAt role w :=
    match role with
    | .caller => w.exchange.wakesAt
    | .receiver => none
  now w := w.now
  setNow t w := { w with now := t }
  workLeft w := w.exchange.workLeft

/-- Replaces the stream. -/
def World.withStream (w : World) (stream : Stream) : World :=
  { w with exchange := { w.exchange with stream } }

/-- Sends the first context ahead of the start, as long as it need not wait. -/
def sendFirst (w : World) : Answer Arrival × World :=
  if w.started then (.word .full, w)
  else
    let announced := w.exchange.announce w.now
    match announced.offerFirst? w.now with
    | none => (.word .full, w)
    | some exchange =>
      (.word (if exchange.firstSent.isSome then .ok else .closed), { w with exchange })

/-- Carries out an act. -/
def act (a : Act) (w : World) : Answer Arrival × World :=
  let stream := w.exchange.stream
  match a with
  | .sendFirst => sendFirst w
  | .start => if w.started then (.word .already, w) else (.word .ok, { w with started := true })
  | .send reply =>
    if stream.replies.senderGone then (.word .dropped, w)
    else
      let (sent, replies) := stream.replies.trySend reply
      (.word (.ofSent sent), w.withStream { stream with replies })
  | .close =>
    if stream.replies.senderGone then (.word .dropped, w)
    else (.word .ok, w.withStream { stream with replies := stream.replies.dropSender })
  | .receive =>
    if stream.requests.receiverGone then (.word .dropped, w)
    else
      let (received, requests) := stream.requests.tryReceive
      (.ofReceived received, w.withStream { stream with requests })
  | .drain =>
    if stream.requests.receiverGone then (.list [.word .dropped], w)
    else
      let (received, requests) := stream.requests.drain
      (.list (received.map .ofReceived), w.withStream { stream with requests })
  | .dropReceiver =>
    if stream.requests.receiverGone then (.word .dropped, w)
    else (.word .ok, w.withStream { stream with requests := stream.requests.dropReceiver })
  | .cancel => (.word .ok, { w with exchange := w.exchange.cancel })
  | .unknown => (.word .unknown, w)

/-- The stand for an exchange. -/
def stand : Stand World Role Act Arrival := ⟨tasks, act⟩

/-- What a script starts from. -/
structure Setting where
  request : Request
  params : Exchange.Params
  requestCapacity : Nat
  replyCapacity : Nat
  /-- How many empty contexts are queued on the side of the requests before anything else, as far as
  there is room. -/
  prefilled : Nat

/-- What is queued before anything else. -/
def Setting.filling (s : Setting) : List Arrival :=
  let count := if s.requestCapacity < s.prefilled then s.requestCapacity else s.prefilled
  List.replicate count (.context ⟨"", "", ""⟩)

/-- The world before the script, over a given stream. Nothing in it is left to chance, so any source
will do. -/
def Setting.world (s : Setting) (stream : Stream) : World :=
  let stream := { stream with requests := { stream.requests with queue := s.filling } }
  { now := .start
    started := false
    exchange := .prepare s.request s.params (.ofSeed 0) stream }

/-- What can be seen after an operation. -/
structure View where
  answer : Answer Arrival
  now : Instant
  entries : List Log.Entry
  /-- The receiver of the replies is gone; unknown when their sender is. -/
  released : Option Bool
  stage : Exchange.Stage

/-- What can be seen after a step of the script. -/
def view (step : Answer Arrival × World × World) : View :=
  let (answer, before, after) := step
  let events := after.exchange.journal.drop before.exchange.journal.length
  let replies := after.exchange.stream.replies
  { answer
    now := after.now
    entries := events.map Exchange.Event.entry
    released := if replies.senderGone then none else some replies.receiverGone
    stage := after.exchange.stage }

/-- Plays a script, if the stream can be made. -/
def play (setting : Setting) (script : List (Op Act)) : Option (List View) :=
  (Stream.ofCapacities? setting.requestCapacity setting.replyCapacity).map fun stream =>
    (stand.play (.ofState tasks (setting.world stream)) script).map view

end ExchangeStand

end ProgressiveSearch.Rehearsal
