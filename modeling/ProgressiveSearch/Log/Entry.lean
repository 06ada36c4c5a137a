import ProgressiveSearch.Word

/-!
# Log entries

An entry of a log: how severe it is, a message, and named values. Where it comes from decides
whether a filter lets it through.
-/
namespace ProgressiveSearch.Log

/-- How severe an entry is, from the most severe down. -/
inductive Level where
  | error
  | warn
  | info
  | debug
  | trace
  deriving DecidableEq, Repr

namespace Level

/-- The number of a level: the higher, the less severe. -/
def number : Level → Nat
  | .error => 1
  | .warn => 2
  | .info => 3
  | .debug => 4
  | .trace => 5

def name : Level → String
  | .error => "ERROR"
  | .warn => "WARN"
  | .info => "INFO"
  | .debug => "DEBUG"
  | .trace => "TRACE"

/-- At least as severe as a threshold. -/
def reaches (level threshold : Level) : Bool :=
  level.number ≤ threshold.number

end Level

/-- A value of an entry. -/
inductive Value where
  | number (n : Nat)
  | flag (b : Bool)
  /-- Text that is shown as it is. -/
  | plain (s : String)
  /-- Text that is shown between quotes. -/
  | text (s : String)
  /-- A time that has passed, in milliseconds. -/
  | elapsed (millis : Nat)
  /-- A time that is spent computing, which is no part of the protocol. -/
  | effort
  deriving DecidableEq, Repr

/-- A named value. -/
structure Field where
  name : String
  value : Value
  deriving DecidableEq, Repr

/-- The parts of the two programs that write entries. -/
inductive Origin where
  | session
  | service
  | server
  | exchange
  | connection
  | client
  deriving DecidableEq, Repr

/-- The path under which a filter knows a part. -/
def Origin.target : Origin → String
  | .session => "revstream_server::server::session"
  | .service => "revstream_server::server::service::handler"
  | .server => "revstream_server"
  | .exchange => "revstream_client::client::exchange"
  | .connection => "revstream_client::client::connection"
  | .client => "revstream_client"

/-- An entry of a log. -/
structure Entry where
  level : Level
  origin : Origin
  message : String
  fields : List Field
  deriving DecidableEq, Repr

namespace Field

def number (name : String) (n : Nat) : Field := ⟨name, .number n⟩
def flag (name : String) (b : Bool) : Field := ⟨name, .flag b⟩
def plain (name s : String) : Field := ⟨name, .plain s⟩
def text (name s : String) : Field := ⟨name, .text s⟩
def elapsed (name : String) (millis : Nat) : Field := ⟨name, .elapsed millis⟩

end Field

/-- A number of milliseconds in a word of sixty-four bits: what does not fit is cut off. -/
def millisWord (millis : Nat) : Nat := millis % Word.size64

end ProgressiveSearch.Log
