import ProgressiveSearch.Call.Basic
import ProgressiveSearch.Service.Basic

/-!
# Connections

A connection joins a client to a far end. All its calls run over it side by side, each on a stream
of its own, and nothing takes time on the way. The far end is a service, or a peer that treats every
call in the same plain way.
-/
namespace ProgressiveSearch

/-- A far end that runs no sessions. -/
inductive Peer where
  /-- It never answers a call. -/
  | neverOpens
  /-- It refuses every call. -/
  | refuses
  /-- It opens every stream, and says nothing on it. -/
  | mute
  /-- It opens every stream, answers the first context, and stays there. -/
  | answersFirst
  deriving DecidableEq, Repr

namespace Peer

/-- The status with which a peer refuses. -/
def refusal : Status := .of .permissionDenied "not today"

/-- What a peer says to a call. -/
def reception? : Peer → Option Call.Reception
  | .neverOpens => none
  | .refuses => some (.refused refusal)
  | .mute | .answersFirst => some .opened

end Peer

namespace Connection

/-- What the far end has to do with a call. -/
inductive Attachment where
  /-- Nothing yet. -/
  | none
  /-- The session in a place of the service answers the call. -/
  | session (place : Nat)
  /-- A peer holds the stream open. -/
  | peer (answered : Bool)
  deriving DecidableEq, Repr

/-- A call and what the far end has to do with it. -/
structure Line where
  call : Call
  attachment : Attachment

end Connection

/-- A client's calls and the far end. -/
structure Connection where
  service : Service
  /-- A peer that answers in the service's place. -/
  peer : Option Peer
  /-- The number of streams that have been asked for. -/
  streams : Nat
  /-- The calls that have been made, in order. -/
  lines : List Connection.Line

namespace Connection

/-- A connection over which no call has been made. -/
def idle (service : Service) (peer : Option Peer) : Connection where
  service
  peer
  streams := 0
  lines := []

/-- The call with a number. -/
def call? (x : Connection) (number : Nat) : Option Call :=
  x.lines[number]?.map Line.call

/-- Changes the call with a number. -/
def modifyCall (x : Connection) (number : Nat) (f : Call → Call) : Connection :=
  { x with lines := x.lines.modify number fun line => { line with call := f line.call } }

/-- Adds a call. -/
def addCall (x : Connection) (call : Call) : Connection :=
  { x with lines := x.lines ++ [{ call, attachment := .none }] }

/-- Takes note of one more stream that is asked for. -/
def countStream (x : Connection) : Connection := { x with streams := x.streams + 1 }

/-- The number of the last stream that was asked for. The client's streams have odd numbers. -/
def lastStream (x : Connection) : Nat := 2 * x.streams - 1

/-- Begins anew: no stream has been asked for. -/
def renew (x : Connection) : Connection := { x with streams := 0 }

/-- The far end has come to its end. A peer never does. -/
def isOver (x : Connection) : Bool := x.peer.isNone && x.service.phase = .stopped

/-- Replaces the service. -/
def withService (x : Connection) (service : Service) : Connection := { x with service }

end Connection

end ProgressiveSearch
