import ProgressiveSearch.Exchange.Outcome
import ProgressiveSearch.Options.Reader
import ProgressiveSearch.Text.Blank
import ProgressiveSearch.Word

/-!
# The configuration of a client

The options of the client program and what becomes of them. A configuration is refused when its
address says nothing, when a connection may take no time at all, and when the bounds of the decision
window are not in order.
-/
namespace ProgressiveSearch.Client

/-- The configuration of a client. -/
structure Config where
  url : String
  /-- How long a connection, and the opening of a stream, may take. -/
  connectTimeout : Duration
  exchange : Exchange.Params
  deriving DecidableEq, Repr

/-- The address to which a client connects unless told otherwise. -/
def defaultUrl : String := "http://127.0.0.1:50051"

/-- The configuration of a client that is told an address only. -/
def Config.ofUrl (url : String) : Config where
  url
  connectTimeout := Contract.connectTimeout
  exchange := .standard

/-- The configuration of a client that is told nothing. -/
def Config.standard : Config := .ofUrl defaultUrl

/-- The same configuration with other parameters of the exchange. -/
def Config.withExchange (c : Config) (exchange : Exchange.Params) : Config := { c with exchange }

/-- What the client program is to do. -/
structure Plan where
  config : Config
  request : Request
  /-- How many calls are made, one after the other. -/
  repetitions : Nat
  /-- How long a call may take before it is given up. -/
  cancelAfter : Option Duration
  deriving DecidableEq, Repr

/-- The request that is made unless told otherwise. -/
def defaultRequest : Request where
  query := "coffee maker"
  subjectId := "B000123"
  refinement := "premium coffee brewing equipment"

/-- The options of the client program. -/
inductive Setting where
  | url
  | query
  | subjectId
  | refinement
  | contextDelay
  | decisionMin
  | decisionMax
  | connectTimeout
  | repetitions
  | cancelAfter
  deriving DecidableEq, Repr

namespace Setting

open Options (Spec)

/-- What each option is. -/
def spec : Setting → Spec
  | .url => .long "server-url" (some "SERVER_URL") .text
  | .query => .long "query" none .text
  | .subjectId => .long "subject-id" none .text
  | .refinement => .long "refinement" none .text
  | .contextDelay => .long "context-delay-ms" (some "CONTEXT_DELAY_MS") (.unsigned Word.max64)
  | .decisionMin => .long "decision-min-ms" (some "DECISION_MIN_MS") (.unsigned Word.max64)
  | .decisionMax => .long "decision-max-ms" (some "DECISION_MAX_MS") (.unsigned Word.max64)
  | .connectTimeout => .long "connect-timeout-ms" (some "CONNECT_TIMEOUT_MS") (.unsigned Word.max64)
  | .repetitions => .long "repeat" none (.counted Word.max32)
  | .cancelAfter => .long "cancel-after-ms" none (.unsigned Word.max64)

/-- All options, in the order in which their variables are looked at. -/
def table : Options.Table Setting where
  options :=
    [.url, .query, .subjectId, .refinement, .contextDelay, .decisionMin, .decisionMax,
     .connectTimeout, .repetitions, .cancelAfter]
  spec

end Setting

/-- What the client program says about itself. -/
def about : Options.About where
  program := "revstream-client"
  version := "0.3.2"
  brief := "Runs progressive search refinement calls against a revstream server"
  full := "Runtime configuration for the `revstream-client` binary."

/-- Why a configuration is refused. -/
inductive Config.Fault where
  | blankUrl
  | noConnectTimeout
  /-- The lower bound of the decision window is above the upper one. -/
  | windowInverted (minMillis maxMillis : Nat)
  deriving DecidableEq, Repr

/-- The sentence that reports why a configuration is refused. -/
def Config.Fault.message : Config.Fault → String
  | .blankUrl => "SERVER_URL must not be empty"
  | .noConnectTimeout => "CONNECT_TIMEOUT_MS must be greater than 0"
  | .windowInverted min max =>
    "DECISION_MIN_MS (" ++ toString min ++ ") must not exceed DECISION_MAX_MS (" ++ toString max ++
      ")"

/-- The configuration that the options describe. -/
def Config.ofFound (found : Options.Found Setting) : Except Config.Fault Config :=
  let standard := Config.standard
  let url := found.text .url standard.url
  let connectMillis := found.number .connectTimeout standard.connectTimeout.millis
  let delayMillis := found.number .contextDelay standard.exchange.contextDelay.millis
  let minMillis := found.number .decisionMin standard.exchange.window.min.millis
  let maxMillis := found.number .decisionMax standard.exchange.window.max.millis
  if Text.isBlank url then .error .blankUrl
  else if connectMillis = 0 then .error .noConnectTimeout
  else
    match DecisionWindow.make? (.ofMillis minMillis) (.ofMillis maxMillis) with
    | none => .error (.windowInverted minMillis maxMillis)
    | some window =>
      .ok
        { url
          connectTimeout := .ofMillis connectMillis
          exchange := { contextDelay := .ofMillis delayMillis, window } }

/-- What the options ask the program to do with a configuration. -/
def Plan.ofFound (found : Options.Found Setting) (config : Config) : Plan where
  config
  request :=
    { query := found.text .query defaultRequest.query
      subjectId := found.text .subjectId defaultRequest.subjectId
      refinement := found.text .refinement defaultRequest.refinement }
  repetitions := found.number .repetitions 1
  cancelAfter := (found.number? .cancelAfter).map .ofMillis

/-- Why the client program does not start. -/
inductive Refusal where
  | halt (h : Options.Halt)
  | config (fault : Config.Fault)
  deriving DecidableEq, Repr

/-- What a command line and an environment ask the program to do. -/
def Plan.read (arguments : List String) (env : String → Option String) : Except Refusal Plan :=
  match Options.read Setting.table arguments env with
  | .error h => .error (.halt h)
  | .ok found =>
    match Config.ofFound found with
    | .error fault => .error (.config fault)
    | .ok config => .ok (Plan.ofFound found config)

/-- A client that is told nothing has the standard configuration. -/
theorem Config.ofFound_nil : Config.ofFound [] = .ok Config.standard := by
  rfl

end ProgressiveSearch.Client
