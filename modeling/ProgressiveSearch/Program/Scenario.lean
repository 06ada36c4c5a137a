import ProgressiveSearch.Program.Client

/-!
# Scenarios

Programs that run together: a server or a peer that listens, clients that run one after the other,
and a signal that stops the server. All of them work in one directory, whose file of variables each
of them reads before its own arguments.
-/
namespace ProgressiveSearch.Program

/-- A client of a scenario. -/
structure ClientLaunch where
  launch : Launch
  /-- The time after the client's start at which the server gets the signal. -/
  signalAfter : Option Duration

/-- Where programs find each other: a file tree, and the place in it of the socket at which somebody
listens. -/
structure Site where
  tree : FileTree
  socket : Option Place

/-- The site of nobody but one who listens at a place. -/
def Site.ofSocket (socket : Place) : Site := ⟨FileTree.empty.add socket, some socket⟩

/-- Somebody listens at an endpoint. Nobody listens on the network. -/
def Site.reaches (site : Site) : Client.Endpoint → Bool
  | .network _ => false
  | .socketFile path => site.socket.any fun socket => site.tree.leadsTo socket path

/-- Programs that run together. -/
structure Scenario where
  /-- The file of variables, if there is one. -/
  dotenv : Option String
  files : List String
  server : Option Launch
  /-- A peer that listens where no server does. -/
  peer : Option Peer
  clients : List ClientLaunch
  signal : Signal
  /-- Where decision timeouts are drawn from. -/
  seed : UInt64

/-- What a scenario leaves behind. -/
structure Aftermath where
  server : Option Report
  clients : List Report
  files : List String

namespace Scenario

/-- The name of the file of variables. -/
def dotenvFile : String := ".env"

/-- The path under which a peer listens. -/
def peerSocket : String := "s.sock"

/-- A launch with the variables of the file added to its own, or the report of a program that breaks
down at them. -/
def withDotenv (s : Scenario) (launch : Launch) : Except Report Launch :=
  match s.dotenv with
  | none => .ok launch
  | some file =>
    match Environment.Dotenv.load? launch.environment file with
    | some environment => .ok { launch with environment }
    | none => .error (.breakdown [])

/-- The file tree before a server starts. -/
def tree (s : Scenario) : FileTree :=
  let names := if s.dotenv.isSome then dotenvFile :: s.files else s.files
  .ofNames (if s.peer.isSome then peerSocket :: names else names)

/-- The site of the clients when no server listens. -/
def peerSite (s : Scenario) : Site where
  tree := s.tree
  socket := s.peer.map fun _ => FileTree.atWork peerSocket

/-- The site of the clients when a server listens. -/
def serverSite (s : Scenario) (listener : Listener) : Site where
  tree := listener.socket.elim s.tree s.tree.add
  socket := listener.socket

/-- Somebody listens at an endpoint, and the far end has not come to its end. -/
def listens (site : Site) (w : World) (endpoint : Client.Endpoint) : Bool :=
  !w.connection.isOver && site.reaches endpoint

/-- Runs a client. -/
def runClient (s : Scenario) (site : Site) (client : ClientLaunch) (course : Course) :
    Report × Course :=
  let course := course.update fun w =>
    match client.signalAfter with
    | some delay => w.setAlarm delay .stopService
    | none => w
  match s.withDotenv client.launch >>= Caller.start with
  | .error report => (report, course)
  | .ok caller => caller.run s.seed (listens site course.state) course

/-- Runs clients one after the other. -/
def runClients (s : Scenario) (site : Site) : List ClientLaunch → Course → List Report × Course
  | [], course => ([], course)
  | client :: rest, course =>
    let (report, course) := s.runClient site client course
    let (reports, course) := s.runClients site rest course
    (report :: reports, course)

/-- Lets a service come to an end: its sessions first, and then itself, asked to stop if it has not
been yet. -/
def wind (config : Service.Config) (course : Course) : Course :=
  let sessions := config.session
  let course := Course.waitFor course (fun w => w.connection.service.inFlight = 0)
    (sessions.idleTimeout.millis + sessions.finalDelay.millis)
  Course.waitFor (course.update World.stopService)
    (fun w => w.connection.service.phase = .stopped)
    (config.shutdownTimeout.millis + Service.cancelTimeout.millis)

/-- Runs the clients of a scenario against a server that listens. -/
def runServer (s : Scenario) (listener : Listener) : Report × List Report :=
  let course := Course.start (.idle listener.service none)
  let (reports, course) := s.runClients (s.serverSite listener) s.clients course
  let course := wind listener.config.service course
  (listener.report s.signal course.state.connection.service, reports)

/-- Runs the clients of a scenario without a server. -/
def runPeer (s : Scenario) : List Report :=
  let connection := Connection.idle (.idle .standard .hash) s.peer
  (s.runClients s.peerSite s.clients (Course.start connection)).1

/-- Runs a scenario. Clients do not run when the server that they are meant for does not listen. -/
def run (s : Scenario) : Aftermath :=
  let (server, clients) :=
    match s.server with
    | none => (none, s.runPeer)
    | some launch =>
      match s.withDotenv launch >>= Listener.start s.tree with
      | .error report => (some report, [])
      | .ok listener =>
        let (report, clients) := s.runServer listener
        (some report, clients)
  { server, clients, files := s.tree.listing }

end Scenario

end ProgressiveSearch.Program
