import ProgressiveSearch.Exchange.Outcome
import ProgressiveSearch.Log.Entry
import ProgressiveSearch.Text.Utf8

/-!
# What a client reports

The events of a client's side of a call, and the log entry that each of them becomes. Those of the
receive loop tell how each batch relates to the ones before it.
-/
namespace ProgressiveSearch.Exchange

/-- What happens on the client's side of a call. Times are since the call began. -/
inductive Event where
  | starting (request : Request)
  | sendingFirst
  | sendingSecond (refinement : String) (elapsed : Duration)
  | halfClosed (elapsed : Duration)
  | drew (timeout : Duration) (window : DecisionWindow)
  | outsideRange (revision : UInt32)
  | outOfOrder (revision highest : UInt32)
  | replaced (revision : UInt32) (oldItems newItems : Nat) (elapsed : Duration)
  | received (revision : UInt32) (items : Nat) (elapsed : Duration)
  | streamFailed (status : Status) (elapsed : Duration)
  | completed (elapsed : Duration) (revisions : Nat)
  | selected (revision : UInt32) (items : Nat) (termination : Termination) (elapsed : Duration)
      (revisions : Nat)
  | nothingSelected (termination : Termination) (elapsed : Duration)
  deriving DecidableEq, Repr

namespace Event

open Log (Field)

/-- A time in whole milliseconds, as it is logged. -/
def millis (d : Duration) : Nat := Log.millisWord d.millis

/-- The event belongs to the receive loop. -/
def ofReceiver : Event → Bool
  | .outsideRange _ | .outOfOrder .. | .replaced .. | .received .. | .streamFailed ..
  | .completed .. => true
  | _ => false

/-- How severe an event is. -/
def level : Event → Log.Level
  | .outsideRange _ | .outOfOrder .. | .streamFailed .. | .nothingSelected .. => .warn
  | _ => .info

/-- The message of an event. -/
def message : Event → String
  | .starting _ => "Starting bidirectional stream"
  | .sendingFirst => "Sending context"
  | .sendingSecond .. => "Sending context"
  | .halfClosed _ => "Half-closed client stream"
  | .drew .. => "Drew decision timeout"
  | .outsideRange _ => "Revision outside the protocol range"
  | .outOfOrder .. => "Revision arrived out of order"
  | .replaced .. => "Replaced batch in buffer"
  | .received .. => "Received batch"
  | .streamFailed .. => "Stream error occurred"
  | .completed .. => "Server completed response stream"
  | .selected .. => "Selected batch"
  | .nothingSelected .. => "No batch received before the decision"

/-- The values of an event. -/
def fields : Event → List Field
  | .starting r =>
    [.plain "query" r.query, .plain "subject_id" r.subjectId,
     .flag "refinement_provided" (!r.refinement.isEmpty)]
  | .sendingFirst => [.number "context_number" 1, .flag "refinement_empty" true]
  | .sendingSecond refinement elapsed =>
    [.number "context_number" 2, .number "refinement_len" (Text.byteCount refinement),
     .elapsed "elapsed_ms" (millis elapsed)]
  | .halfClosed elapsed => [.elapsed "elapsed_ms" (millis elapsed)]
  | .drew timeout window =>
    [.number "timeout_ms" (millis timeout), .number "min_timeout_ms" (millis window.min),
     .number "max_timeout_ms" (millis window.max)]
  | .outsideRange revision => [.number "revision" revision.toNat]
  | .outOfOrder revision highest =>
    [.number "revision" revision.toNat, .number "highest" highest.toNat]
  | .replaced revision oldItems newItems elapsed =>
    [.number "revision" revision.toNat, .number "old_items" oldItems,
     .number "new_items" newItems, .elapsed "elapsed_ms" (millis elapsed)]
  | .received revision items elapsed =>
    [.number "revision" revision.toNat, .number "items" items,
     .elapsed "elapsed_ms" (millis elapsed)]
  | .streamFailed status elapsed =>
    [.plain "code" status.code.name, .plain "error" status.message,
     .elapsed "elapsed_ms" (millis elapsed)]
  | .completed elapsed revisions =>
    [.elapsed "elapsed_ms" (millis elapsed), .number "versions_received" revisions]
  | .selected revision items termination elapsed revisions =>
    [.number "selected_revision" revision.toNat, .number "items" items,
     .plain "termination" termination.name, .elapsed "total_duration_ms" (millis elapsed),
     .number "versions_considered" revisions]
  | .nothingSelected termination elapsed =>
    [.plain "termination" termination.name, .elapsed "total_duration_ms" (millis elapsed)]

/-- The log entry of an event. -/
def entry (e : Event) : Log.Entry where
  level := e.level
  origin := .exchange
  message := e.message
  fields := e.fields

end Event

end ProgressiveSearch.Exchange
