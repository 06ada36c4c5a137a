import ProgressiveSearch.Service.Basic
import ProgressiveSearch.Session.Step

/-!
# The steps of a service

A service moves when one of its sessions does, and when it stops. A session's events enter the
service's journal as they happen; behind them stands the failure with which it ends, if it does.
-/
namespace ProgressiveSearch.Service

/-- The tasks of a service. -/
inductive Role where
  | session (place : Nat)
  | stopping
  deriving DecidableEq, Repr

/-- What the service says about a session that is over. -/
def farewell (id : Nat) (session : Session) : List Event :=
  match session.result? with
  | some (.failed failure) => [.aborted id failure]
  | _ => []

/-- Puts a session that has moved into its place. If it is over now it is not counted any more. -/
def moved (s : Service) (place : Nat) (before after : Session) : Service :=
  let events := after.journal.drop before.journal.length
  { s with
    sessions := s.sessions.set place after
    inFlight := if after.isOver then s.inFlight - 1 else s.inFlight
    journal := s.journal ++ events.map (.session (place + 1)) ++ farewell (place + 1) after }

/-- One step of the session in a place. -/
def stepSession (now : Instant) (place : Nat) (s : Service) : Option Service := do
  let before ← s.session? place
  let after ← before.step now s.isCancelling
  return s.moved place before after

/-- Starts to drain. -/
def startDraining (now : Instant) (s : Service) : Service :=
  { (s.record .refusing).record (.draining s.inFlight) with
    phase := .draining (now.giveUpAfter s.config.shutdownTimeout) now }

/-- Tells the sessions that are left to stop. -/
def startCancelling (now : Instant) (s : Service) : Service :=
  { s with phase := .cancelling (now.giveUpAfter cancelTimeout) now }

/-- Ends the service. -/
def conclude (s : Service) : Service :=
  { s.record .stopped with phase := .stopped }

/-- What a look at the sessions leads to. -/
inductive Look where
  /-- No session is left. -/
  | clear
  /-- The time is up. -/
  | timedOut
  /-- The next look is due later. -/
  | again
  deriving DecidableEq, Repr

/-- Looks at the sessions if a look is due, and then at the time. -/
def look? (now giveUp nextLook : Instant) (s : Service) : Option Look :=
  if nextLook ≤ now ∧ s.inFlight = 0 then some .clear
  else if giveUp ≤ now then some .timedOut
  else if nextLook ≤ now then some .again
  else none

/-- One step towards the end of a service that has been asked to stop. -/
def stepStopping (now : Instant) (s : Service) : Option Service :=
  match s.phase with
  | .serving | .stopped => none
  | .asked => some (s.startDraining now)
  | .draining giveUp nextLook =>
    (s.look? now giveUp nextLook).map fun
      | .clear => (s.record .drained).startCancelling now
      | .timedOut => (s.record (.drainTimedOut s.inFlight)).startCancelling now
      | .again => { s with phase := .draining giveUp (now.plus pace) }
  | .cancelling giveUp nextLook =>
    (s.look? now giveUp nextLook).map fun
      | .clear => s.conclude
      | .timedOut => (s.record (.unstopped s.inFlight)).conclude
      | .again => { s with phase := .cancelling giveUp (now.plus pace) }

/-- The tasks of a service, in the order in which they are counted. -/
def roles (s : Service) : List Role :=
  (List.range s.sessions.length).map .session ++
    match s.phase with
    | .serving => []
    | _ => [.stopping]

/-- One step of a task, or `none` while it waits and when it is over. -/
def step (now : Instant) (role : Role) (s : Service) : Option Service :=
  match role with
  | .session place => s.stepSession now place
  | .stopping => s.stepStopping now

/-- The moment at which a waiting task goes on by itself. -/
def wakesAt (role : Role) (s : Service) : Option Instant :=
  match role with
  | .session place => (s.session? place).bind Session.wakesAt
  | .stopping =>
    match s.phase with
    | .draining giveUp nextLook | .cancelling giveUp nextLook =>
      some (if giveUp ≤ nextLook then giveUp else nextLook)
    | .serving | .asked | .stopped => none

/-- A bound on the number of steps that all tasks together can take before they wait for more
arrivals. -/
def workLeft (s : Service) : Nat :=
  s.sessions.foldr (fun session n => session.workLeft + n) 8

end ProgressiveSearch.Service
