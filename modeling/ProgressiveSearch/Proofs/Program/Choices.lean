import ProgressiveSearch.Client.Config
import ProgressiveSearch.Proofs.Options.Conveying
import ProgressiveSearch.Server.Config

/-! # What the programs are told is what they do

A valid choice for a program has a value for each of its options, and the values are such
that the program accepts them (`Server.Choice`, `Client.Choice`).  The only option of
either program that can do without a value is the one that lets a client give up its
calls.

**However the values are divided between the command line and the environment**, the
program reads the configuration of the choice (`configured_as_chosen`): the arguments may
stand in any order, and only the variables of options without an argument are looked at.
Some options have no variable; a flag has no text on the command line, and one of the two
words in its variable.
-/
namespace ProgressiveSearch

open Options (Found Value)

namespace Server

theorem Setting.wellNamed : Setting.table.WellNamed where
  listed o := by cases o <;> decide
  distinct := by decide
  nonempty := by decide
  no_equals := by decide

/-- A valid choice of values for the options of a server. -/
structure Choice where
  address : String
  onSocketFile : Bool
  finalMillis : Nat
  idleMillis : Nat
  bufferSize : Nat
  strict : Bool
  shutdownSeconds : Nat
  address_says : Text.isBlank address = false
  final_lt_idle : finalMillis < idleMillis
  idle_le : idleMillis ≤ Word.max64
  buffer_pos : 0 < bufferSize
  buffer_le : bufferSize ≤ Word.max64
  shutdown_le : shutdownSeconds ≤ Word.max64

namespace Choice

/-- The value that is chosen for an option. -/
def value (c : Choice) : Setting → Option Value
  | .address => some (.text c.address)
  | .socketFile => some (.flag c.onSocketFile)
  | .finalDelay => some (.number c.finalMillis)
  | .idleTimeout => some (.number c.idleMillis)
  | .streamBufferSize => some (.number c.bufferSize)
  | .strict => some (.flag c.strict)
  | .shutdownTimeout => some (.number c.shutdownSeconds)

/-- The configuration that is chosen. -/
def config (c : Choice) : Config where
  address := c.address
  onSocketFile := c.onSocketFile
  service :=
    { streamBufferSize := c.bufferSize
      shutdownTimeout := .ofSeconds c.shutdownSeconds
      session :=
        { finalDelay := .ofMillis c.finalMillis
          idleTimeout := .ofMillis c.idleMillis
          strict := c.strict } }

variable {c : Choice}

/-- Each value is of the kind of its option. -/
theorem takes (o : Setting) (v : Value) (hv : c.value o = some v) :
    (Setting.table.spec o).kind.Takes v := by
  cases o <;> obtain rfl := Option.some.inj hv
  case address => exact .text _
  case socketFile => exact .flag _
  case finalDelay => exact .unsigned (c.final_lt_idle.le.trans c.idle_le)
  case idleTimeout => exact .unsigned c.idle_le
  case streamBufferSize => exact .unsigned c.buffer_le
  case strict => exact .flag _
  case shutdownTimeout => exact .unsigned c.shutdown_le

/-- A valid choice is accepted. -/
theorem ofFound_eq {found : Found Setting} (h : found.Holds c.value) :
    Config.ofFound found = .ok c.config := by
  unfold Config.ofFound
  simp only [h.text (o := .address) rfl, h.flag (o := .socketFile) rfl,
    h.number (o := .finalDelay) rfl, h.number (o := .idleTimeout) rfl,
    h.number (o := .streamBufferSize) rfl, h.flag (o := .strict) rfl,
    h.number (o := .shutdownTimeout) rfl]
  rw [if_neg (by simp [c.address_says]), if_neg c.buffer_pos.ne', if_neg c.final_lt_idle.not_ge]
  rfl

/-- It is read, however it is told. -/
theorem read_eq {given : Found Setting} {env : String → Option String}
    (h : Setting.table.Conveys c.value given env) :
    Config.read (Setting.table.arguments given) env = .ok c.config := by
  obtain ⟨found, hread, hholds⟩ := Options.read_conveyed Setting.wellNamed takes h
  simp only [Config.read, hread, ofFound_eq hholds]

end Choice
end Server

namespace Client

theorem Setting.wellNamed : Setting.table.WellNamed where
  listed o := by cases o <;> decide
  distinct := by decide
  nonempty := by decide
  no_equals := by decide

/-- A valid choice of values for the options of a client. -/
structure Choice where
  url : String
  request : Request
  delayMillis : Nat
  minMillis : Nat
  maxMillis : Nat
  connectMillis : Nat
  repetitions : Nat
  cancelMillis : Option Nat
  url_says : Text.isBlank url = false
  delay_le : delayMillis ≤ Word.max64
  min_le_max : minMillis ≤ maxMillis
  max_le : maxMillis ≤ Word.max64
  connect_pos : 0 < connectMillis
  connect_le : connectMillis ≤ Word.max64
  repetitions_le : repetitions ≤ Word.max32
  cancel_le : ∀ n ∈ cancelMillis, n ≤ Word.max64

namespace Choice

/-- The value that is chosen for an option. -/
def value (c : Choice) : Setting → Option Value
  | .url => some (.text c.url)
  | .query => some (.text c.request.query)
  | .subjectId => some (.text c.request.subjectId)
  | .refinement => some (.text c.request.refinement)
  | .contextDelay => some (.number c.delayMillis)
  | .decisionMin => some (.number c.minMillis)
  | .decisionMax => some (.number c.maxMillis)
  | .connectTimeout => some (.number c.connectMillis)
  | .repetitions => some (.number c.repetitions)
  | .cancelAfter => c.cancelMillis.map .number

/-- The configuration that is chosen. -/
def config (c : Choice) : Config where
  url := c.url
  connectTimeout := .ofMillis c.connectMillis
  exchange :=
    { contextDelay := .ofMillis c.delayMillis
      window := ⟨.ofMillis c.minMillis, .ofMillis c.maxMillis⟩ }

/-- What is chosen to be done. -/
def plan (c : Choice) : Plan where
  config := c.config
  request := c.request
  repetitions := c.repetitions
  cancelAfter := c.cancelMillis.map .ofMillis

variable {c : Choice}

/-- Each value is of the kind of its option. -/
theorem takes (o : Setting) (v : Value) (hv : c.value o = some v) :
    (Setting.table.spec o).kind.Takes v := by
  cases o
  case cancelAfter =>
    obtain ⟨n, hn, rfl⟩ := Option.map_eq_some_iff.mp hv
    exact .unsigned (c.cancel_le n hn)
  all_goals obtain rfl := Option.some.inj hv
  case url => exact .text _
  case query => exact .text _
  case subjectId => exact .text _
  case refinement => exact .text _
  case contextDelay => exact .unsigned c.delay_le
  case decisionMin => exact .unsigned (c.min_le_max.trans c.max_le)
  case decisionMax => exact .unsigned c.max_le
  case connectTimeout => exact .unsigned c.connect_le
  case repetitions => exact .counted c.repetitions_le (c.repetitions_le.trans (by decide))

/-- The bounds of the window are in order. -/
theorem window_eq : DecisionWindow.make? (.ofMillis c.minMillis) (.ofMillis c.maxMillis) =
    some ⟨.ofMillis c.minMillis, .ofMillis c.maxMillis⟩ :=
  if_pos (Nat.mul_le_mul_right _ c.min_le_max)

/-- A valid choice is accepted. -/
theorem ofFound_eq {found : Found Setting} (h : found.Holds c.value) :
    Config.ofFound found = .ok c.config := by
  unfold Config.ofFound
  simp only [h.text (o := .url) rfl, h.number (o := .contextDelay) rfl,
    h.number (o := .decisionMin) rfl, h.number (o := .decisionMax) rfl,
    h.number (o := .connectTimeout) rfl, window_eq]
  rw [if_neg (by simp [c.url_says]), if_neg c.connect_pos.ne']
  rfl

/-- So is what is to be done. -/
theorem planOfFound_eq {found : Found Setting} (h : found.Holds c.value) :
    Plan.ofFound found c.config = c.plan := by
  simp only [Plan.ofFound, h.text (o := .query) rfl, h.text (o := .subjectId) rfl,
    h.text (o := .refinement) rfl, h.number (o := .repetitions) rfl,
    h.number? (o := .cancelAfter) rfl]
  rfl

/-- It is read, however it is told. -/
theorem read_eq {given : Found Setting} {env : String → Option String}
    (h : Setting.table.Conveys c.value given env) :
    Plan.read (Setting.table.arguments given) env = .ok c.plan := by
  obtain ⟨found, hread, hholds⟩ := Options.read_conveyed Setting.wellNamed takes h
  simp only [Plan.read, hread, ofFound_eq hholds, planOfFound_eq hholds]

end Choice
end Client

/-- **Both programs are configured as chosen**, in whichever way they are told. -/
theorem configured_as_chosen :
    (∀ (c : Server.Choice) (given : Found Server.Setting) (env : String → Option String),
      Server.Setting.table.Conveys c.value given env →
        Server.Config.read (Server.Setting.table.arguments given) env = .ok c.config) ∧
    (∀ (c : Client.Choice) (given : Found Client.Setting) (env : String → Option String),
      Client.Setting.table.Conveys c.value given env →
        Client.Plan.read (Client.Setting.table.arguments given) env = .ok c.plan) :=
  ⟨fun _ _ _ h => Server.Choice.read_eq h, fun _ _ _ h => Client.Choice.read_eq h⟩

/-- A server that is told of its address, its socket and its patience by arguments, and a client
that is told of its window by variables.  A variable that no number can be read from does not
matter where an argument tells the number. -/
theorem configured_as_chosen_divided :
    Server.Config.read ["--idle-timeout-ms=18446744073709551615", "--uds", "--server-addr=-a=b"]
        (fun name => [("IDLE_TIMEOUT_MS", "soon"), ("FINAL_DELAY_MS", "0"),
          ("STREAM_BUFFER_SIZE", "1"), ("STRICT_PROTOCOL", "true"),
          ("SHUTDOWN_TIMEOUT", "20")].lookup name) =
      .ok
        { address := "-a=b"
          onSocketFile := true
          service :=
            { streamBufferSize := 1
              shutdownTimeout := .ofSeconds 20
              session :=
                { finalDelay := .ofMillis 0
                  idleTimeout := .ofMillis 18446744073709551615
                  strict := true } } } ∧
    Client.Plan.read ["--repeat=4294967295", "--query=", "--refinement=--query=mug",
        "--context-delay-ms=7", "--subject-id=B1"]
        (fun name => [("SERVER_URL", "http://h:1/"), ("DECISION_MIN_MS", "75"),
          ("DECISION_MAX_MS", "75"), ("CONNECT_TIMEOUT_MS", "1"),
          ("CONTEXT_DELAY_MS", "-")].lookup name) =
      .ok
        { config :=
            { url := "http://h:1/"
              connectTimeout := .ofMillis 1
              exchange :=
                { contextDelay := .ofMillis 7
                  window := ⟨.ofMillis 75, .ofMillis 75⟩ } }
          request := { query := "", subjectId := "B1", refinement := "--query=mug" }
          repetitions := 4294967295
          cancelAfter := none } := by
  let server : Server.Choice :=
    { address := "-a=b", onSocketFile := true, finalMillis := 0
      idleMillis := 18446744073709551615, bufferSize := 1, strict := true, shutdownSeconds := 20
      address_says := by decide, final_lt_idle := by decide, idle_le := by decide
      buffer_pos := by decide, buffer_le := by decide, shutdown_le := by decide }
  let client : Client.Choice :=
    { url := "http://h:1/"
      request := { query := "", subjectId := "B1", refinement := "--query=mug" }
      delayMillis := 7, minMillis := 75, maxMillis := 75, connectMillis := 1
      repetitions := 4294967295, cancelMillis := none
      url_says := by decide, delay_le := by decide, min_le_max := by decide, max_le := by decide
      connect_pos := by decide, connect_le := by decide, repetitions_le := by decide
      cancel_le := nofun }
  exact
    ⟨configured_as_chosen.1 server
        [(.idleTimeout, .number 18446744073709551615), (.socketFile, .flag true),
         (.address, .text "-a=b")] _ (by decide),
      configured_as_chosen.2 client
        [(.repetitions, .number 4294967295), (.query, .text ""),
         (.refinement, .text "--query=mug"), (.contextDelay, .number 7),
         (.subjectId, .text "B1")] _ (by decide)⟩

end ProgressiveSearch
