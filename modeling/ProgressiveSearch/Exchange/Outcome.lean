import ProgressiveSearch.DecisionWindow
import ProgressiveSearch.Message
import ProgressiveSearch.Status

/-!
# What a client asks for and what comes of it

The request of a call, the timing it is made with, and its outcome: the batch selected, the
revisions received, and why the client stopped waiting.
-/
namespace ProgressiveSearch

/-- What a caller wants to be searched. -/
structure Request where
  query : String
  subjectId : String
  refinement : String
  deriving DecidableEq, Repr, Inhabited

namespace Request

/-- The context that opens the call: the refinement is held back. -/
def firstContext (r : Request) : Context := ⟨r.query, r.subjectId, ""⟩

/-- The context that refines the call. -/
def secondContext (r : Request) : Context := ⟨r.query, r.subjectId, r.refinement⟩

end Request

namespace Exchange

/-- The timing of a call on the client's side. -/
structure Params where
  /-- From the first context to the second. -/
  contextDelay : Duration
  /-- Where the time from the second context to the decision is drawn from. -/
  window : DecisionWindow
  deriving DecidableEq, Repr

/-- The parameters of the timing contract. -/
def Params.standard : Params := ⟨Contract.contextDelay, .standard⟩

/-- Why a client stopped waiting. -/
inductive Termination where
  /-- The drawn time was up. -/
  | decisionTimeout
  /-- Nothing more can come. -/
  | serverClosed
  /-- The stream failed. -/
  | streamFailed (code : Code)
  /-- A context could not be sent. -/
  | sendFailed
  /-- The caller gave the call up. -/
  | cancelled
  deriving DecidableEq, Repr

def Termination.name : Termination → String
  | .decisionTimeout => "DecisionTimeout"
  | .serverClosed => "ServerClosed"
  | .streamFailed code => "StreamFailed(" ++ code.name ++ ")"
  | .sendFailed => "SendFailed"
  | .cancelled => "Cancelled"

/-- Everything that a call produced. -/
structure Outcome where
  /-- The batch of the highest revision received. -/
  selected : Option Batch
  /-- The revisions received, in ascending order. -/
  revisions : List UInt32
  /-- The decision timeout, if the call came to draw one. -/
  decisionTimeout : Option Duration
  termination : Termination
  elapsed : Duration
  deriving DecidableEq, Repr

namespace Outcome

/-- The outcome of a call that is given up before its stream is open. -/
def cancelledBeforeOpen : Outcome where
  selected := none
  revisions := []
  decisionTimeout := none
  termination := .cancelled
  elapsed := .zero

/-- Something was selected. -/
def found (o : Outcome) : Bool := o.selected.isSome

end Outcome

end Exchange

end ProgressiveSearch
