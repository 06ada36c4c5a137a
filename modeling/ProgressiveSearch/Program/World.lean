import ProgressiveSearch.Connection.Step
import ProgressiveSearch.Schedule

/-!
# The world of programs that run

A connection with a clock, and alarms that go off at their moments: a call is given up, or the
service is asked to stop.
-/
namespace ProgressiveSearch.Program

/-- What an alarm does. -/
inductive Errand where
  | giveUp (call : Nat)
  | stopService
  deriving DecidableEq, Repr

/-- Something that is done at a moment. -/
structure Alarm where
  due : Instant
  errand : Errand
  deriving DecidableEq, Repr

/-- A connection, and what it sees of the world. -/
structure World where
  now : Instant
  connection : Connection
  alarms : List Alarm

namespace World

/-- The tasks of a world. -/
inductive Role where
  | connection (role : Connection.Role)
  | alarms
  deriving DecidableEq, Repr

/-- The service is asked to stop. -/
def stopService (w : World) : World :=
  { w with connection := w.connection.withService w.connection.service.stop }

/-- Runs an errand. -/
def run (w : World) : Errand → World
  | .giveUp call => { w with connection := w.connection.modifyCall call Call.cancel }
  | .stopService => w.stopService

/-- Runs the errand of an alarm that is due. -/
def ring? (w : World) : Option World :=
  match w.alarms.find? fun alarm => alarm.due ≤ w.now with
  | none => none
  | some alarm => some ({ w with alarms := w.alarms.erase alarm }.run alarm.errand)

/-- The earliest moment of an alarm. -/
def nextAlarm? (w : World) : Option Instant :=
  (w.alarms.map Alarm.due).foldl (fun best t => some (match best with
    | none => t
    | some b => if t < b then t else b)) none

/-- The tasks of the connection, and the alarms as one more. -/
def tasks : Tasks World Role where
  all w := w.connection.roles.map .connection ++ [.alarms]
  step role w :=
    match role with
    | .connection role =>
      (w.connection.step w.now role).map fun connection => { w with connection }
    | .alarms => w.ring?
  wakesAt role w :=
    match role with
    | .connection role => w.connection.wakesAt role
    | .alarms => w.nextAlarm?
  now w := w.now
  setNow t w := { w with now := t }
  workLeft w := w.connection.workLeft + w.alarms.length + 1

/-- Sets an alarm. -/
def setAlarm (w : World) (delay : Duration) (errand : Errand) : World :=
  { w with alarms := w.alarms ++ [⟨w.now.plus delay, errand⟩] }

end World

/-- A world and the order in which its tasks will run. -/
abbrev Course := Schedule World World.Role

namespace Course

/-- The course of a world in which nothing has happened. -/
def start (connection : Connection) : Course :=
  .ofState World.tasks { now := .start, connection, alarms := [] }

/-- Lets time pass until something holds, with a bound on the time in milliseconds. -/
def waitFor (c : Course) (done : World → Bool) (millis : Nat) : Course :=
  Schedule.runUntil World.tasks done (millis + 8) c

end Course

end ProgressiveSearch.Program
