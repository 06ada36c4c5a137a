import ProgressiveSearch.Rehearsal.Script
import ProgressiveSearch.Service.Step
import ProgressiveSearch.Wire.Frame

/-!
# Rehearsing a service

A service whose calls are made by a script: each call's requests come as the bytes of a body, in
pieces of any size, and its replies are read one by one. Calls are counted whether they are accepted
or not.
-/
namespace ProgressiveSearch.Rehearsal

namespace ServiceStand

/-- What a script does to a call. -/
inductive CallAct where
  /-- A piece of the body arrives. -/
  | feed (piece : Wire.Bytes)
  /-- The body fails with a status. -/
  | fail (s : Status)
  | halfClose
  | receive
  | drain
  | dropReceiver

/-- What a script does to a service. -/
inductive Act where
  | openCall
  /-- Something is done to the call with a number. -/
  | call (number : Nat) (a : CallAct)
  | shutdown
  | unknown
  deriving Inhabited

/-- The script's side of a call that was accepted. -/
structure Seat where
  /-- The place of its session. -/
  place : Nat
  body : Wire.Body
  /-- Nothing more comes of the body. -/
  ended : Bool
  /-- The script has let go of the body. -/
  released : Bool

/-- A service, and the calls that a script has made. -/
structure World where
  now : Instant
  service : Service
  /-- The calls in order; a call that was refused has no seat. -/
  calls : List (Option Seat)
  /-- The service broke down while it accepted a call. -/
  brokenDown : Bool

/-- The tasks of the service. -/
def tasks : Tasks World Service.Role where
  all w := w.service.roles
  step role w := (w.service.step w.now role).map fun service => { w with service }
  wakesAt role w := w.service.wakesAt role
  now w := w.now
  setNow t w := { w with now := t }
  workLeft w := w.service.workLeft

namespace World

/-- Replaces the seat of a call. -/
def withSeat (w : World) (number : Nat) (seat : Seat) : World :=
  { w with calls := w.calls.set number (some seat) }

/-- Replaces the stream of a call. -/
def withStream (w : World) (seat : Seat) (stream : Stream) : World :=
  { w with service := w.service.withStream seat.place stream }

end World

/-- Opens a call. -/
def openCall (w : World) : Answer Reply × World :=
  match w.service.accept w.now (.ofCapacity Channel.maxCapacity) with
  | .accepted service =>
    let seat : Seat :=
      { place := w.service.sessions.length, body := .empty, ended := false, released := false }
    (.word .ok, { w with service, calls := w.calls ++ [some seat] })
  | .refused status => (.value (.failed status), { w with calls := w.calls ++ [none] })
  | .brokenDown service => (.word .ok, { w with service, brokenDown := true })

/-- Adds what the body brings to the requests, unless the body has ended. -/
def bring (seat : Seat) (arrivals : List Arrival) (requests : Channel Arrival) : Channel Arrival :=
  if seat.ended then requests else arrivals.foldl .put requests

/-- Carries out an act on the body of a call. -/
def bodyAct (w : World) (number : Nat) (seat : Seat) (stream : Stream) (arrivals : List Arrival)
    (body : Wire.Body) (ended : Bool) : Answer Reply × World :=
  if seat.released then (.word .dropped, w)
  else if stream.requests.receiverGone then (.word .closed, w)
  else
    let requests := bring seat arrivals stream.requests
    let requests := if ended && arrivals.isEmpty then requests.dropSender else requests
    (.word .ok, (w.withStream seat { stream with requests }).withSeat number
      { seat with body, ended := seat.ended || ended })

/-- A failure that reads as a plain end of the body. -/
def isPlainEnd (s : Status) : Bool := s.code = .cancelled

/-- Ends the body of a call. -/
def halfClose (w : World) (number : Nat) (seat : Seat) (stream : Stream) : Answer Reply × World :=
  if seat.released then (.word .dropped, w)
  else
    let arrivals := (seat.body.ending.map .failed).toList
    let requests :=
      if stream.requests.receiverGone then stream.requests
      else (bring seat arrivals stream.requests).dropSender
    (.word .ok, (w.withStream seat { stream with requests }).withSeat number
      { seat with ended := true, released := true })

/-- Carries out an act on a call. -/
def callAct (w : World) (number : Nat) (seat : Seat) (stream : Stream) :
    CallAct → Answer Reply × World
  | .feed piece =>
    let (arrivals, body) := if seat.ended then ([], seat.body) else seat.body.feed piece
    bodyAct w number seat stream arrivals body false
  | .fail status =>
    bodyAct w number seat stream (if isPlainEnd status then [] else [.failed status]) seat.body true
  | .halfClose => halfClose w number seat stream
  | .receive =>
    if stream.replies.receiverGone then (.word .dropped, w)
    else
      let (received, replies) := stream.replies.tryReceive
      (.ofReceived received, w.withStream seat { stream with replies })
  | .drain =>
    if stream.replies.receiverGone then (.list [.word .dropped], w)
    else
      let (received, replies) := stream.replies.drain
      (.list (received.map .ofReceived), w.withStream seat { stream with replies })
  | .dropReceiver =>
    if stream.replies.receiverGone then (.word .dropped, w)
    else (.word .ok, w.withStream seat { stream with replies := stream.replies.dropReceiver })

/-- Carries out an act. -/
def act (a : Act) (w : World) : Answer Reply × World :=
  match a with
  | .openCall => openCall w
  | .call number a =>
    match w.calls[number]?.join with
    | none => (.word .noCall, w)
    | some seat =>
      match w.service.session? seat.place with
      | none => (.word .noCall, w)
      | some session => callAct w number seat session.stream a
  | .shutdown =>
    match w.service.phase with
    | .serving => (.word .ok, { w with service := w.service.stop })
    | _ => (.word .already, w)
  | .unknown => (.word .unknown, w)

/-- The stand for a service. -/
def stand : Stand World Service.Role Act Reply := ⟨tasks, act⟩

/-- The world before the script. -/
def World.begin (config : Service.Config) (ranker : Ranker) : World where
  now := .start
  service := .idle config ranker
  calls := []
  brokenDown := false

/-- What can be seen after an operation. -/
structure View where
  answer : Answer Reply
  now : Instant
  entries : List Log.Entry
  ranked : List UInt32
  inFlight : Nat
  phase : Service.Phase

/-- Plays a script, unless the service breaks down while it accepts a call. -/
def play (config : Service.Config) (ranker : Ranker) (script : List (Op Act)) :
    Option (List View) :=
  let steps := stand.play (.ofState tasks (.begin config ranker)) script
  if steps.any fun step => step.2.2.brokenDown then none
  else
    some <| steps.map fun (answer, before, after) =>
      let events := after.service.journal.drop before.service.journal.length
      { answer
        now := after.now
        entries := events.map Service.Event.entry
        ranked := events.filterMap Service.Event.ranked?
        inFlight := after.service.inFlight
        phase := after.service.phase }

end ServiceStand

end ProgressiveSearch.Rehearsal
