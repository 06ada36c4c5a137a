import ProgressiveSearch.Call.Step
import ProgressiveSearch.Connection.Basic
import ProgressiveSearch.Service.Step

/-!
# The steps of a connection

The tasks of a connection are the two tasks of each call, a handler at the far end of each call, and
the tasks of the service. A stream is seen from both of its ends: what one end does to it is passed
on to the other with the same step.
-/
namespace ProgressiveSearch.Connection

/-- The tasks of a connection. -/
inductive Role where
  | caller (number : Nat)
  | receiver (number : Nat)
  | handler (number : Nat)
  | service (role : Service.Role)
  deriving DecidableEq, Repr

/-- The place of the session that answers a call. -/
def Line.place? (line : Line) : Option Nat :=
  match line.attachment with
  | .session place => some place
  | .none | .peer _ => none

/-- Replaces a call after a step of the client. A session sees what became of the stream. -/
def putCall (x : Connection) (number : Nat) (line : Line) (call : Call) : Connection :=
  let x := { x with lines := x.lines.set number { line with call } }
  match line.place? with
  | some place => x.withService (x.service.withStream place call.exchange.stream)
  | none => x

/-- The stream of a call, seen from the session in a place. -/
def Line.refresh (service : Service) (line : Line) : Line :=
  match line.place?.bind service.session? with
  | some session => { line with call := line.call.withStream session.stream }
  | none => line

/-- Replaces the service after a step of its own. The calls see what became of their streams. -/
def putService (x : Connection) (service : Service) : Connection :=
  { x with service, lines := x.lines.map (Line.refresh service) }

/-! ## The far end -/

/-- A call reaches the service. -/
def present (x : Connection) (now : Instant) (number : Nat) (line : Line) : Connection :=
  match x.service.accept now line.call.exchange.stream.requests with
  | .accepted service =>
    let place := x.service.sessions.length
    let line : Line := { call := line.call.receive .opened, attachment := .session place }
    { x with service, lines := x.lines.set number (line.refresh service) }
  | .refused status => x.modifyCall number (.receive · (.refused status))
  | .brokenDown service =>
    (x.withService service).modifyCall number (.receive · (.refused (.lost x.lastStream)))

/-- A peer answers the first context that it finds. -/
def answerFirst? (x : Connection) (number : Nat) (line : Line) : Option Connection :=
  let stream := line.call.exchange.stream
  match stream.requests.queue with
  | .context c :: rest =>
    let stream : Stream :=
      { requests := { stream.requests with queue := rest }
        replies := stream.replies.offer (.batch (Ranker.echo c Contract.firstRevision)) }
    let line : Line := { call := line.call.withStream stream, attachment := .peer true }
    some { x with lines := x.lines.set number line }
  | _ => none

/-- One step of the handler of a call. -/
def handle (x : Connection) (now : Instant) (number : Nat) (line : Line) : Option Connection :=
  if line.call.awaitsReception then
    match x.peer with
    | none => some (x.countStream.present now number line)
    | some peer =>
      peer.reception?.map fun reception =>
        let line : Line := { call := line.call.receive reception, attachment := .peer false }
        { x.countStream with lines := x.lines.set number line }
  else if line.attachment = .peer false ∧ x.peer = some .answersFirst then
    x.answerFirst? number line
  else none

/-! ## Tasks -/

/-- The tasks of a call. -/
def lineRoles (number : Nat) (line : Line) : List Role :=
  if !line.call.isStarted then []
  else if line.call.exchange.receiver = .absent then [.caller number, .handler number]
  else [.caller number, .handler number, .receiver number]

/-- The tasks of a connection, in the order in which they are counted. -/
def roles (x : Connection) : List Role :=
  (x.lines.zipIdx.flatMap fun entry => lineRoles entry.2 entry.1) ++ x.service.roles.map .service

/-- One step of a task, or `none` while it waits and when it is over. -/
def step (now : Instant) (role : Role) (x : Connection) : Option Connection :=
  match role with
  | .caller number => do
    let line ← x.lines[number]?
    let call ← line.call.step now
    return x.putCall number line call
  | .receiver number => do
    let line ← x.lines[number]?
    let call ← line.call.stepReceiver now
    return x.putCall number line call
  | .handler number => do
    let line ← x.lines[number]?
    x.handle now number line
  | .service role => (x.service.step now role).map x.putService

/-- The moment at which a waiting task goes on by itself. -/
def wakesAt (role : Role) (x : Connection) : Option Instant :=
  match role with
  | .caller number => (x.call? number).bind Call.wakesAt
  | .receiver _ | .handler _ => none
  | .service role => x.service.wakesAt role

/-- A bound on the number of steps before all tasks wait. Every context that a call may still send
costs its session a few. -/
def workLeft (x : Connection) : Nat :=
  x.lines.foldr (fun line n => line.call.workLeft + 16 + n) (2 * x.service.workLeft + 8)

end ProgressiveSearch.Connection
