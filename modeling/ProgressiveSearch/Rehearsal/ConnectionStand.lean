import ProgressiveSearch.Connection.Step
import ProgressiveSearch.Rehearsal.Script

/-!
# Rehearsing a connection

Calls over one connection: a script makes calls, gives them up, stops the service and lets time
pass. A call that has been made may be made again; it counts as a new one from then on, under the
same number.
-/
namespace ProgressiveSearch.Rehearsal

namespace ConnectionStand

/-- How a call is made. -/
inductive Manner where
  /-- It can be given up, and all of its outcome is reported. -/
  | full
  /-- It cannot be given up, and only the batch selected is reported. -/
  | plain
  deriving DecidableEq, Repr

/-- What a script does to a connection. -/
inductive Act where
  | make (number : Nat) (manner : Manner)
  | cancel (number : Nat)
  | shutdown
  | unknown
  deriving Inhabited

/-- That a call was made, and how. -/
structure Making where
  number : Nat
  manner : Manner
  deriving DecidableEq, Repr

/-- A connection, and what it sees of the world. -/
structure World where
  now : Instant
  connection : Connection
  /-- The calls that may be made, by number. -/
  calls : List Call
  /-- What was made, one for each call of the connection. -/
  makings : List Making
  /-- The numbers of the calls that have been given up. -/
  cancelled : List Nat

/-- The tasks of the connection. -/
def tasks : Tasks World Connection.Role where
  all w := w.connection.roles
  step role w := (w.connection.step w.now role).map fun connection => { w with connection }
  wakesAt role w := w.connection.wakesAt role
  now w := w.now
  setNow t w := { w with now := t }
  workLeft w := w.connection.workLeft

/-- Makes a call. One that was given up before may be made, but goes no further. -/
def make (w : World) (number : Nat) (manner : Manner) (call : Call) : World :=
  let call := call.start
  let call := if manner = .full && w.cancelled.contains number then call.cancel else call
  { w with
    connection := w.connection.addCall call
    makings := w.makings ++ [⟨number, manner⟩] }

/-- The places in the connection of the calls that were made in a way. -/
def World.placesOf (w : World) (making : Making) : List Nat :=
  (w.makings.zipIdx.filter fun entry => entry.1 = making).map Prod.snd

/-- Gives a call up, whenever it is made and as far as it can be. -/
def giveUp (w : World) (number : Nat) : World :=
  { w with
    connection := (w.placesOf ⟨number, .full⟩).foldl (·.modifyCall · Call.cancel) w.connection
    cancelled := number :: w.cancelled }

/-- Carries out an act. -/
def act (a : Act) (w : World) : Answer Empty × World :=
  match a with
  | .make number manner =>
    match w.calls[number]? with
    | none => (.word .unknown, w)
    | some call => (.word .ok, make w number manner call)
  | .cancel number =>
    if number < w.calls.length then (.word .ok, giveUp w number) else (.word .unknown, w)
  | .shutdown =>
    match w.connection.service.phase with
    | .serving =>
      (.word .ok, { w with connection := w.connection.withService w.connection.service.stop })
    | _ => (.word .already, w)
  | .unknown => (.word .unknown, w)

/-- The stand for a connection. -/
def stand : Stand World Connection.Role Act Empty := ⟨tasks, act⟩

/-- The world before the script. -/
def World.begin (connection : Connection) (calls : List Call) : World where
  now := .start
  connection
  calls
  makings := []
  cancelled := []

/-- A call as it can be seen from outside: how it was made, and its result if it is over. -/
structure CallView where
  manner : Manner
  result : Option Call.Result

/-- What can be seen after an operation. -/
structure View where
  answer : Answer Empty
  now : Instant
  inFlight : Nat
  phase : Service.Phase
  /-- The calls; `none` for those that have not been made. -/
  calls : List (Option CallView)

/-- A call as it can be seen, the last one that was made if it was made more than once. -/
def World.callView? (w : World) (number : Nat) : Option CallView := do
  let (line, making) ← ((w.connection.lines.zip w.makings).filter (·.2.number = number)).getLast?
  return { manner := making.manner, result := line.call.result? }

/-- What can be seen of the world. -/
def World.view (w : World) (answer : Answer Empty) : View where
  answer
  now := w.now
  inFlight := w.connection.service.inFlight
  phase := w.connection.service.phase
  calls := (List.range w.calls.length).map w.callView?

/-- Plays a script over a connection, with calls that it may make. -/
def play (connection : Connection) (calls : List Call) (script : List (Op Act)) : List View :=
  (stand.play (.ofState tasks (.begin connection calls)) script).map fun (answer, _, after) =>
    after.view answer

end ConnectionStand

end ProgressiveSearch.Rehearsal
