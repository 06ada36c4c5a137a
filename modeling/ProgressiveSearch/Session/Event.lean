import ProgressiveSearch.Failure
import ProgressiveSearch.Log.Entry
import ProgressiveSearch.Message
import ProgressiveSearch.Text.Utf8
import ProgressiveSearch.Time.Duration

/-!
# What a session reports

The events of a session, in the words of the protocol, and the log entry that each of them becomes.
-/
namespace ProgressiveSearch.Session

/-- How a session that did not fail came to its end. -/
inductive Ending where
  /-- All three revisions were sent. -/
  | completed
  /-- The client half-closed before its second context. -/
  | halfClosedEarly
  /-- The client was silent for too long before its second context. -/
  | idleTimeout
  deriving DecidableEq, Repr

def Ending.name : Ending → String
  | .completed => "Completed"
  | .halfClosedEarly => "HalfClosedEarly"
  | .idleTimeout => "IdleTimeout"

/-- What happens in a session. Contexts are numbered from one; times are since the session began. -/
inductive Event where
  | received (number : Nat) (context : Context) (elapsed : Duration)
  | sending (revision : UInt32) (items : Nat) (elapsed : Duration)
  | listed (revision : UInt32) (index : Nat) (item : Item)
  | sendFailed (revision : UInt32)
  | scheduled (delay : Duration)
  | rejected (reason : String)
  | ignored (number : Nat)
  | receiverGone (contexts : Nat)
  | idle (contexts : Nat) (timeout : Duration)
  | streamFailed (contexts : Nat) (status : Status) (elapsed : Duration)
  | halfClosed (contexts : Nat) (elapsed : Duration)
  | closed (ending : Ending) (contexts batches : Nat) (elapsed : Duration)
  | deferredCancelled (reason : Failure)
  deriving DecidableEq, Repr

namespace Event

open Log (Field)

/-- A time in whole milliseconds, as it is logged. -/
def millis (d : Duration) : Nat := Log.millisWord d.millis

/-- How severe an event is. -/
def level : Event → Log.Level
  | .listed .. => .debug
  | .sendFailed _ | .rejected _ | .ignored _ | .receiverGone _ | .idle .. => .warn
  | .streamFailed .. => .error
  | _ => .info

/-- The message of an event. -/
def message : Event → String
  | .received .. => "Received context"
  | .sending .. => "Sending batch"
  | .listed .. => "Batch item"
  | .sendFailed _ => "Failed to send batch, receiver dropped"
  | .scheduled _ => "Scheduled deferred revision"
  | .rejected _ => "Rejecting call"
  | .ignored _ => "Ignoring extra context"
  | .receiverGone _ => "Client dropped the response stream"
  | .idle .. => "No further context before idle timeout, closing"
  | .streamFailed .. => "Error in bidirectional stream"
  | .halfClosed .. => "Client half-closed stream"
  | .closed .. => "Session closed"
  | .deferredCancelled _ => "Cancelled deferred revision"

/-- The values of an event, after the session's number. -/
def fields : Event → List Field
  | .received number context elapsed =>
    [.number "context_number" number, .plain "query" context.query,
     .plain "subject_id" context.subjectId,
     .number "refinement_len" (Text.byteCount context.refinement),
     .elapsed "session_elapsed_ms" (millis elapsed)]
  | .sending revision items elapsed =>
    [.number "revision" revision.toNat, .number "items" items, ⟨"generation_ms", .effort⟩,
     .elapsed "session_elapsed_ms" (millis elapsed)]
  | .listed revision index item =>
    [.number "revision" revision.toNat, .number "index" index, .plain "item_id" item.itemId,
     .plain "score" (item.score.text 3)]
  | .sendFailed revision => [.number "revision" revision.toNat]
  | .scheduled delay => [.number "delay_ms" (millis delay)]
  | .rejected reason => [.plain "reason" reason]
  | .ignored number => [.number "context_number" number]
  | .receiverGone contexts => [.number "contexts_received" contexts]
  | .idle contexts timeout =>
    [.number "contexts_received" contexts, .number "idle_ms" (millis timeout)]
  | .streamFailed contexts status elapsed =>
    [.number "contexts_processed" contexts, .plain "error" status.text,
     .elapsed "session_elapsed_ms" (millis elapsed)]
  | .halfClosed contexts elapsed =>
    [.number "contexts_received" contexts, .elapsed "session_elapsed_ms" (millis elapsed)]
  | .closed ending contexts batches elapsed =>
    [.plain "end" ending.name, .number "contexts_received" contexts,
     .number "batches_sent" batches, .elapsed "total_duration_ms" (millis elapsed)]
  | .deferredCancelled reason => [.plain "reason" reason.message]

/-- The log entry of an event of the session with a number. -/
def entry (id : Nat) (e : Event) : Log.Entry where
  level := e.level
  origin := .session
  message := e.message
  fields := .number "session_id" id :: e.fields

/-- The revision that a ranker is asked for at an event. -/
def ranked? : Event → Option UInt32
  | .sending revision _ _ => some revision
  | _ => none

end Event

end ProgressiveSearch.Session
