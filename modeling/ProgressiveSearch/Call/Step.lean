import ProgressiveSearch.Call.Basic
import ProgressiveSearch.Exchange.Call

/-!
# The steps of a call

While a call waits for its stream it looks first whether it was given up, then for the answer of the
far end, then at the clock.
-/
namespace ProgressiveSearch.Call

/-- The status of a call whose stream was not opened in time. -/
def notOpened (timeout : Duration) : Status :=
  .of .deadlineExceeded ("stream not opened within " ++ toString timeout.millis ++ "ms")

/-- Ends a call whose stream is not open. Both sides of the stream are let go. -/
def close (c : Call) (result : Result) : Call :=
  let stream := c.exchange.stream
  { c.withStream { requests := stream.requests.dropSender
                   replies := stream.replies.dropReceiver } with
    stage := .closed result }

/-- Announces the call, queues the first context and asks the far end to open the stream. -/
def ask? (c : Call) (now : Instant) : Option Call :=
  ((c.exchange.announce now).offerFirst? now).map fun exchange =>
    { c with exchange, stage := .opening (now.giveUpAfter c.connectTimeout) }

/-- One step of a call that waits for its stream. -/
def open? (c : Call) (now giveUp : Instant) : Option Call :=
  if c.exchange.cancelled then some (c.close (.outcome .cancelledBeforeOpen))
  else
    match c.reception with
    | some .opened => some { c with stage := .exchanging }
    | some (.refused status) => some (c.close (.failed (.streamOpen status)))
    | none =>
      if giveUp ≤ now then some (c.close (.failed (.streamOpen (notOpened c.connectTimeout))))
      else none

/-- One step of the caller, or `none` while it waits and when it is over. -/
def step (now : Instant) (c : Call) : Option Call :=
  match c.stage with
  | .prepared | .closed _ => none
  | .starting => c.ask? now
  | .opening giveUp => c.open? now giveUp
  | .exchanging => (c.exchange.call now).map fun exchange => { c with exchange }

/-- One step of the receiver, or `none` while it waits and when it is over. -/
def stepReceiver (now : Instant) (c : Call) : Option Call :=
  (c.exchange.receive now).map fun exchange => { c with exchange }

/-- The moment at which a waiting caller goes on by itself. -/
def wakesAt (c : Call) : Option Instant :=
  match c.stage with
  | .opening giveUp => some giveUp
  | .exchanging => c.exchange.wakesAt
  | .prepared | .starting | .closed _ => none

/-- A bound on the number of steps of both tasks before they wait for more replies. -/
def workLeft (c : Call) : Nat := 2 * c.exchange.workLeft + 4

end ProgressiveSearch.Call
