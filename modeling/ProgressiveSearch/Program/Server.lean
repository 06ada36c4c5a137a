import ProgressiveSearch.Environment.Dotenv
import ProgressiveSearch.Program.Binding
import ProgressiveSearch.Program.Report
import ProgressiveSearch.Program.World
import ProgressiveSearch.Server.Config

/-!
# The server program

The server reads its configuration, starts to listen, tells what it is configured to do, and serves
until a signal asks it to stop. Everything that its service and its sessions report is in its log.
-/
namespace ProgressiveSearch.Program

/-- How a program is started: its arguments, and the variables of its own. -/
structure Launch where
  arguments : List String
  environment : Environment

/-- A signal that ends a server. -/
inductive Signal where
  | terminate
  | interrupt
  deriving DecidableEq, Repr

/-- How a signal is told in a log. -/
def Signal.message : Signal → String
  | .terminate => "Received SIGTERM signal"
  | .interrupt => "Received Ctrl+C signal"

/-- A server that listens. -/
structure Listener where
  config : Server.Config
  filter : Log.Filter
  /-- The place of its socket, if it listens in the file system. -/
  socket : Option Place

namespace Listener

/-- Something that the server itself has to say. -/
def entry (message : String) : Log.Entry where
  level := .info
  origin := .server
  message
  fields := []

/-- A flag as it is shown. -/
def flagText (b : Bool) : String := if b then "true" else "false"

/-- The configuration as it is shown, one value a line. -/
def configText (c : Server.Config) : String :=
  String.join
    ["ServerConfig \x7b\n",
     "    server_addr: " ++ Text.quoted c.address ++ ",\n",
     "    uds: " ++ flagText c.onSocketFile ++ ",\n",
     "    stream_buffer_size: " ++ toString c.service.streamBufferSize ++ ",\n",
     "    shutdown_timeout: " ++ c.service.shutdownTimeout.text ++ ",\n",
     "    session: SessionConfig \x7b\n",
     "        final_delay: " ++ c.service.session.finalDelay.text ++ ",\n",
     "        idle_timeout: " ++ c.service.session.idleTimeout.text ++ ",\n",
     "        strict_protocol: " ++ flagText c.service.session.strict ++ ",\n",
     "    \x7d,\n",
     "\x7d"]

/-- What the server says when it starts to listen. -/
def greeting (c : Server.Config) : Log.Entry :=
  entry ("Starting search service on " ++ c.address ++ " with full config: " ++ configText c)

/-- Starts to listen where the configuration says. -/
def bind (t : FileTree) (c : Server.Config) : Except BindFault (Option Place) :=
  if c.onSocketFile then (t.bindSocket c.address).map some
  else
    match networkFault? c.address with
    | some fault => .error fault
    | none => .ok none

/-- Starts the server, or tells how it ended before it could listen. -/
def start (t : FileTree) (launch : Launch) : Except Report Listener :=
  let env := launch.environment
  match Server.Config.read launch.arguments env.get? with
  | .error (.halt h) => .error (.ofHalt Server.about h)
  | .error (.config fault) => .error (.failure [] fault.message)
  | .ok config =>
    match Log.Filter.ofVariable? (env.get? filterVariable) with
    | none => .error (.breakdown [])
    | some filter =>
      match bind t config with
      | .error fault => .error (.failure [] fault.message)
      | .ok socket => .ok { config, filter, socket }

/-- The service of the server. -/
def service (l : Listener) : Service := .idle l.config.service .hash

/-- The span of a session. -/
def sessionSpan (id : Nat) : Log.Span where
  name := "session"
  numberName := "session_id"
  number := id
  origin := .service

/-- The line of an event of the service. -/
def line? (f : Log.Filter) (e : Service.Event) : Option (Strand × Log.Line) :=
  let strand : Strand :=
    match e with
    | .opened id | .session id _ | .aborted id _ => .session id
    | _ => .main
  (Log.Line.ofEntry? f (e.sessionId?.map sessionSpan) e.entry).map (strand, ·)

/-- The line of something that the server itself has to say. -/
def ownLine? (f : Log.Filter) (e : Log.Entry) : Option (Strand × Log.Line) :=
  (Log.Line.ofEntry? f none e).map (.main, ·)

/-- The report of a server that was stopped by a signal after its service had done its work. -/
def report (l : Listener) (signal : Signal) (service : Service) : Report :=
  let greetings :=
    [greeting l.config, entry signal.message,
     entry "Shutdown signal received, terminating gracefully..."]
  let farewells := [entry "Service shut down successfully"]
  .success (greetings.filterMap (ownLine? l.filter) ++ service.journal.filterMap (line? l.filter) ++
    farewells.filterMap (ownLine? l.filter))

end Listener

end ProgressiveSearch.Program
