import ProgressiveSearch.Text.Quoted

/-!
# Statuses

A call that is refused or breaks down ends with a status: one of seventeen numbered codes and a
message in free text.
-/
namespace ProgressiveSearch

/-- Why a call ended, in the order of the codes' numbers. -/
inductive Code where
  | ok
  | cancelled
  | unknown
  | invalidArgument
  | deadlineExceeded
  | notFound
  | alreadyExists
  | permissionDenied
  | resourceExhausted
  | failedPrecondition
  | aborted
  | outOfRange
  | unimplemented
  | internal
  | unavailable
  | dataLoss
  | unauthenticated
  deriving DecidableEq, Repr, Inhabited

namespace Code

/-- All codes in the order of their numbers. -/
def all : List Code :=
  [.ok, .cancelled, .unknown, .invalidArgument, .deadlineExceeded, .notFound, .alreadyExists,
   .permissionDenied, .resourceExhausted, .failedPrecondition, .aborted, .outOfRange,
   .unimplemented, .internal, .unavailable, .dataLoss, .unauthenticated]

/-- The number of a code. -/
def number : Code → Nat
  | .ok => 0
  | .cancelled => 1
  | .unknown => 2
  | .invalidArgument => 3
  | .deadlineExceeded => 4
  | .notFound => 5
  | .alreadyExists => 6
  | .permissionDenied => 7
  | .resourceExhausted => 8
  | .failedPrecondition => 9
  | .aborted => 10
  | .outOfRange => 11
  | .unimplemented => 12
  | .internal => 13
  | .unavailable => 14
  | .dataLoss => 15
  | .unauthenticated => 16

/-- The code with a number; a number that no code has means `unknown`. -/
def ofNumber (n : Int) : Code :=
  if 0 ≤ n then all.getD n.toNat .unknown else .unknown

/-- The name of a code. -/
def name : Code → String
  | .ok => "Ok"
  | .cancelled => "Cancelled"
  | .unknown => "Unknown"
  | .invalidArgument => "InvalidArgument"
  | .deadlineExceeded => "DeadlineExceeded"
  | .notFound => "NotFound"
  | .alreadyExists => "AlreadyExists"
  | .permissionDenied => "PermissionDenied"
  | .resourceExhausted => "ResourceExhausted"
  | .failedPrecondition => "FailedPrecondition"
  | .aborted => "Aborted"
  | .outOfRange => "OutOfRange"
  | .unimplemented => "Unimplemented"
  | .internal => "Internal"
  | .unavailable => "Unavailable"
  | .dataLoss => "DataLoss"
  | .unauthenticated => "Unauthenticated"

/-- The sentence that explains a code. -/
def description : Code → String
  | .ok => "The operation completed successfully"
  | .cancelled => "The operation was cancelled"
  | .unknown => "Unknown error"
  | .invalidArgument => "Client specified an invalid argument"
  | .deadlineExceeded => "Deadline expired before operation could complete"
  | .notFound => "Some requested entity was not found"
  | .alreadyExists => "Some entity that we attempted to create already exists"
  | .permissionDenied =>
    "The caller does not have permission to execute the specified operation"
  | .resourceExhausted => "Some resource has been exhausted"
  | .failedPrecondition =>
    "The system is not in a state required for the operation's execution"
  | .aborted => "The operation was aborted"
  | .outOfRange => "Operation was attempted past the valid range"
  | .unimplemented => "Operation is not implemented or not supported"
  | .internal => "Internal error"
  | .unavailable => "The service is currently unavailable"
  | .dataLoss => "Unrecoverable data loss or corruption"
  | .unauthenticated =>
    "The request does not have valid authentication credentials"

end Code

/-- How a call ended: a code and a message. -/
structure Status where
  code : Code
  message : String
  /-- The number of the stream whose loss it reports, when the far end has not said a word. -/
  lostStream : Option Nat
  deriving DecidableEq, Repr, Inhabited

namespace Status

/-- A status of the far end's, or of the program's own. -/
def of (code : Code) (message : String) : Status := ⟨code, message, none⟩

/-- The status of a call whose stream, the one with a number, was reset by the far end. -/
def lost (stream : Nat) : Status := ⟨.cancelled, "h2 protocol error: http2 error", some stream⟩

/-- What lies behind the loss of a stream. -/
def lossText (stream : Nat) : String :=
  "tonic::transport::Error(Transport, hyper::Error(Http2, Error \x7b kind: Reset(StreamId(" ++
    toString stream ++ "), CANCEL, Remote) \x7d))"

/-- The text of a status: the description of its code, then its message if it has one, then what
lies behind it. -/
def text (s : Status) : String :=
  let shown := "code: '" ++ s.code.description ++ "'"
  let shown :=
    if s.message.isEmpty then shown else shown ++ ", message: " ++ Text.quoted s.message
  match s.lostStream with
  | none => shown
  | some stream => shown ++ ", source: " ++ lossText stream

end Status

end ProgressiveSearch
