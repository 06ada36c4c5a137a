import ProgressiveSearch.Client.Config
import ProgressiveSearch.Failure
import ProgressiveSearch.Log.Entry
import ProgressiveSearch.Text.Uri

/-!
# Where a client connects

A client's address names a socket in the file system or a place on the network. What is no address
at all is told apart from an address at which nobody listens.
-/
namespace ProgressiveSearch.Client

/-- Where a client connects. -/
inductive Endpoint where
  /-- A socket in the file system. -/
  | socketFile (path : String)
  /-- A place on the network. -/
  | network (address : String)
  deriving DecidableEq, Repr

namespace Endpoint

/-- What marks a socket in the file system. -/
def socketMark : String := "unix:"

/-- The endpoint that an address names, if it is one. -/
def ofUrl? (url : String) : Option Endpoint :=
  if socketMark.toList.isPrefixOf url.toList then
    match url.toList.drop socketMark.length with
    | '/' :: '/' :: path => some (.socketFile (String.ofList path))
    | path => some (.socketFile (String.ofList path))
  else if Text.Uri.isValid url then some (.network url)
  else none

end Endpoint

/-- Why no connection is made. -/
inductive Unreachable where
  /-- The address is none. -/
  | notAnAddress
  /-- Nobody listens there. -/
  | nobodyListens
  deriving DecidableEq, Repr

def Unreachable.message : Unreachable → String
  | .notAnAddress => "invalid URI"
  | .nobodyListens => "transport error"

/-- Connects to an address, given where somebody listens. -/
def connect (url : String) (listens : Endpoint → Bool) : Except Unreachable Endpoint :=
  match Endpoint.ofUrl? url with
  | none => .error .notAnAddress
  | some endpoint => if listens endpoint then .ok endpoint else .error .nobodyListens

/-- The failure of a connection. -/
def Unreachable.failure (url : String) (u : Unreachable) : Failure := .connect url u.message

/-- The entry that notes a connection. -/
def connected (url : String) : Log.Entry where
  level := .debug
  origin := .connection
  message := "Connected"
  fields := [.plain "endpoint" url]

end ProgressiveSearch.Client
