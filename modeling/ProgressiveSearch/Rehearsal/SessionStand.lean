import ProgressiveSearch.Rehearsal.Script
import ProgressiveSearch.Session.Step

/-!
# Rehearsing a session

One session on its own: a script sends contexts, reads replies, stops the service and lets time
pass.
-/
namespace ProgressiveSearch.Rehearsal

namespace SessionStand

/-- What a script does to a session. -/
inductive Act where
  | start
  | send (a : Arrival)
  | halfClose
  | receive
  | drain
  | dropReceiver
  | shutdown
  | unknown
  deriving Inhabited

/-- A session, and what it sees of the world. -/
structure World where
  now : Instant
  started : Bool
  stopping : Bool
  session : Session

/-- The session as the only task. -/
def tasks : Tasks World Unit where
  all w := if w.started then [()] else []
  step _ w := (w.session.step w.now w.stopping).map fun session => { w with session }
  wakesAt _ w := w.session.wakesAt
  now w := w.now
  setNow t w := { w with now := t }
  workLeft w := w.session.workLeft

/-- Replaces the stream. -/
def World.withStream (w : World) (stream : Stream) : World :=
  { w with session := { w.session with stream } }

/-- Carries out an act. -/
def act (a : Act) (w : World) : Answer Reply × World :=
  let stream := w.session.stream
  match a with
  | .start => if w.started then (.word .already, w) else (.word .ok, { w with started := true })
  | .send arrival =>
    if stream.requests.senderGone then (.word .dropped, w)
    else
      let (sent, requests) := stream.requests.trySend arrival
      (.word (.ofSent sent), w.withStream { stream with requests })
  | .halfClose =>
    if stream.requests.senderGone then (.word .dropped, w)
    else (.word .ok, w.withStream { stream with requests := stream.requests.dropSender })
  | .receive =>
    if stream.replies.receiverGone then (.word .dropped, w)
    else
      let (received, replies) := stream.replies.tryReceive
      (.ofReceived received, w.withStream { stream with replies })
  | .drain =>
    if stream.replies.receiverGone then (.list [.word .dropped], w)
    else
      let (received, replies) := stream.replies.drain
      (.list (received.map .ofReceived), w.withStream { stream with replies })
  | .dropReceiver =>
    if stream.replies.receiverGone then (.word .dropped, w)
    else (.word .ok, w.withStream { stream with replies := stream.replies.dropReceiver })
  | .shutdown => (.word .ok, { w with stopping := true })
  | .unknown => (.word .unknown, w)

/-- The stand for a session. -/
def stand : Stand World Unit Act Reply := ⟨tasks, act⟩

/-- What a script starts from. -/
structure Setting where
  config : Session.Config
  ranker : Ranker
  requestCapacity : Nat
  replyCapacity : Nat
  id : Nat
  requestsSeen : Nat

/-- The world before the script, over a given stream. -/
def Setting.world (s : Setting) (stream : Stream) : World where
  now := .start
  started := false
  stopping := false
  session :=
    .enter s.config s.ranker { Session.Tally.begin s.id .start with requestsSeen := s.requestsSeen }
      stream

/-- What can be seen after an operation. -/
structure View where
  answer : Answer Reply
  now : Instant
  entries : List Log.Entry
  ranked : List UInt32
  result : Option Session.Result

/-- What can be seen after a step of the script. -/
def view (id : Nat) (step : Answer Reply × World × World) : View :=
  let (answer, before, after) := step
  let events := after.session.journal.drop before.session.journal.length
  { answer
    now := after.now
    entries := events.map (Session.Event.entry id)
    ranked := events.filterMap Session.Event.ranked?
    result := after.session.result? }

/-- Plays a script, if the stream can be made. -/
def play (setting : Setting) (script : List (Op Act)) : Option (List View) :=
  (Stream.ofCapacities? setting.requestCapacity setting.replyCapacity).map fun stream =>
    (stand.play (.ofState tasks (setting.world stream)) script).map (view setting.id)

end SessionStand

end ProgressiveSearch.Rehearsal
