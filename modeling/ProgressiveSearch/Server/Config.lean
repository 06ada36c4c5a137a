import ProgressiveSearch.Options.Reader
import ProgressiveSearch.Service.Basic
import ProgressiveSearch.Text.Blank
import ProgressiveSearch.Word

/-!
# The configuration of a server

The options of the server program and what becomes of them. A configuration is refused when its
address says nothing, when no reply could ever be sent, and when a session would be closed as idle
before its final revision is due.
-/
namespace ProgressiveSearch.Server

/-- The configuration of a server. -/
structure Config where
  /-- Where it listens: an address, or the path of a socket. -/
  address : String
  /-- It listens on a socket in the file system. -/
  onSocketFile : Bool
  service : Service.Config
  deriving DecidableEq, Repr

/-- The address on which a server listens unless told otherwise. -/
def defaultAddress : String := "0.0.0.0:50051"

/-- The configuration of a server that is told nothing. -/
def Config.standard : Config where
  address := defaultAddress
  onSocketFile := false
  service := .standard

/-- The options of the server program. -/
inductive Setting where
  | address
  | socketFile
  | finalDelay
  | idleTimeout
  | streamBufferSize
  | strict
  | shutdownTimeout
  deriving DecidableEq, Repr

namespace Setting

open Options (Spec)

/-- What each option is. -/
def spec : Setting → Spec
  | .address => .long "server-addr" (some "SERVER_ADDR") .text
  | .socketFile => { name := "uds", short := some 'u', variableName := none, kind := .flag }
  | .finalDelay => .long "final-delay-ms" (some "FINAL_DELAY_MS") (.unsigned Word.max64)
  | .idleTimeout => .long "idle-timeout-ms" (some "IDLE_TIMEOUT_MS") (.unsigned Word.max64)
  | .streamBufferSize =>
    .long "stream-buffer-size" (some "STREAM_BUFFER_SIZE") (.unsigned Word.max64)
  | .strict => .long "strict-protocol" (some "STRICT_PROTOCOL") .flag
  | .shutdownTimeout => .long "shutdown-timeout" (some "SHUTDOWN_TIMEOUT") (.unsigned Word.max64)

/-- All options, in the order in which their variables are looked at. -/
def table : Options.Table Setting where
  options :=
    [.address, .socketFile, .finalDelay, .idleTimeout, .streamBufferSize, .strict,
     .shutdownTimeout]
  spec

end Setting

/-- What the server program says about itself. -/
def about : Options.About where
  program := "revstream-server"
  version := "0.3.2"
  brief := "A gRPC service streaming progressively refined search results"
  full := "Runtime configuration for the `revstream-server` binary."

/-- Why a configuration is refused. -/
inductive Config.Fault where
  | blankAddress
  | noBuffer
  /-- The idle timeout is not longer than the final delay. -/
  | idleTooShort (idleMillis finalMillis : Nat)
  deriving DecidableEq, Repr

/-- The sentence that reports why a configuration is refused. -/
def Config.Fault.message : Config.Fault → String
  | .blankAddress => "SERVER_ADDR must not be empty"
  | .noBuffer => "STREAM_BUFFER_SIZE must be greater than 0"
  | .idleTooShort idle final =>
    "IDLE_TIMEOUT_MS (" ++ toString idle ++ ") must exceed FINAL_DELAY_MS (" ++ toString final ++
      ")"

/-- The configuration that the options describe. -/
def Config.ofFound (found : Options.Found Setting) : Except Config.Fault Config :=
  let standard := Config.standard
  let address := found.text .address standard.address
  let bufferSize := found.number .streamBufferSize standard.service.streamBufferSize
  let finalMillis := found.number .finalDelay standard.service.session.finalDelay.millis
  let idleMillis := found.number .idleTimeout standard.service.session.idleTimeout.millis
  let shutdownSeconds := found.number .shutdownTimeout standard.service.shutdownTimeout.seconds
  if Text.isBlank address then .error .blankAddress
  else if bufferSize = 0 then .error .noBuffer
  else if idleMillis ≤ finalMillis then .error (.idleTooShort idleMillis finalMillis)
  else
    .ok
      { address
        onSocketFile := found.flag .socketFile
        service :=
          { streamBufferSize := bufferSize
            shutdownTimeout := .ofSeconds shutdownSeconds
            session :=
              { finalDelay := .ofMillis finalMillis
                idleTimeout := .ofMillis idleMillis
                strict := found.flag .strict } } }

/-- Why the server program does not start. -/
inductive Refusal where
  | halt (h : Options.Halt)
  | config (fault : Config.Fault)
  deriving DecidableEq, Repr

/-- The configuration that a command line and an environment describe. -/
def Config.read (arguments : List String) (env : String → Option String) :
    Except Refusal Config :=
  match Options.read Setting.table arguments env with
  | .error h => .error (.halt h)
  | .ok found =>
    match Config.ofFound found with
    | .error fault => .error (.config fault)
    | .ok config => .ok config

/-- A server that is told nothing has the standard configuration. -/
theorem Config.ofFound_nil : Config.ofFound [] = .ok Config.standard := by
  rfl

end ProgressiveSearch.Server
