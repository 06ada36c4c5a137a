import ProgressiveSearch.Exchange.Receive

/-! # What a receiver makes of a stream

The receiver of an exchange takes one reply a turn.  Left alone with a stream
that has been closed, it comes to an end, and the end is that of the replies
(`hears`): the first of them that is not a batch decides, and a stream of batches
only is a call that completed.
-/
namespace ProgressiveSearch.Exchange

/-- The end of a stream that brings these replies and is then closed. -/
def hears : List Reply → ReceiveEnd
  | [] => .completed
  | .batch _ :: rest => hears rest
  | .failed status :: _ => .failed status.code
  | .fault :: _ => .stopped

theorem hears_batches (batches : List Batch) (rest : List Reply) :
    hears (batches.map .batch ++ rest) = hears rest := by
  induction batches with
  | nil => rfl
  | cons b batches ih => exact ih

/-- The receiver takes a turn at each of these moments. -/
def listen (x : Exchange) (turns : List Instant) : Exchange :=
  turns.foldl (fun x now => (x.receive now).getD x) x

/-- The receiver is at work, and the service has closed its side. -/
structure Drains (x : Exchange) : Prop where
  reading : x.receiver = .reading
  unstopped : x.stopping = false
  closed : x.stream.replies.senderGone = true

section Turns
variable {x : Exchange} {now : Instant}

theorem listen_cons (turns : List Instant) :
    x.listen (now :: turns) = ((x.receive now).getD x).listen turns := rfl

theorem listen_over {ending : ReceiveEnd} (h : x.receiver = .over ending) (turns : List Instant) :
    x.listen turns = x := by
  induction turns with
  | nil => rfl
  | cons now turns ih =>
    have hr : x.receive now = none := by
      unfold receive
      rw [h]
    rw [listen_cons, hr]
    exact ih

/-- A receiver that drains takes the oldest reply, or notes that the service has
completed. -/
theorem receive_drains (h : x.Drains) : x.receive now = some (
    match x.stream.replies.queue with
    | reply :: _ => x.takeReply.onReply now reply
    | [] => (x.record (.completed (x.elapsed now) x.buffer.size)).endReceiver .completed) := by
  unfold receive
  rw [h.reading]
  dsimp only
  rw [if_neg (by simp [h.unstopped])]
  cases x.stream.replies.queue with
  | nil => exact if_pos h.closed
  | cons reply rest => rfl

/-- **The receiver ends as its stream does**, whenever it takes its turns, as long
as there are enough of them. -/
theorem listen_ends (h : x.Drains) {turns : List Instant}
    (hn : x.stream.replies.queue.length < turns.length) :
    (x.listen turns).receiver = .over (hears x.stream.replies.queue) := by
  induction turns generalizing x with
  | nil => simp at hn
  | cons now turns ih =>
    rw [listen_cons, receive_drains h, Option.getD_some]
    cases hq : x.stream.replies.queue with
    | nil =>
      dsimp only
      rw [listen_over rfl]
      rfl
    | cons reply rest =>
      have htail : x.takeReply.stream.replies.queue = rest := by
        show x.stream.replies.queue.tail = rest
        rw [hq]
        rfl
      cases reply with
      | batch b =>
        have hd : (x.takeReply.onReply now (.batch b)).Drains := ⟨h.reading, h.unstopped, h.closed⟩
        have hlen : (x.takeReply.onReply now (.batch b)).stream.replies.queue.length <
            turns.length := by
          show x.takeReply.stream.replies.queue.length < turns.length
          rw [htail]
          simpa [hq] using hn
        have hend := ih hd hlen
        dsimp only
        rw [hend]
        show _ = Receiver.over (hears rest)
        rw [← htail]
        rfl
      | failed status =>
        dsimp only
        rw [listen_over rfl]
        rfl
      | fault =>
        dsimp only
        rw [listen_over rfl]
        rfl

end Turns

end ProgressiveSearch.Exchange
