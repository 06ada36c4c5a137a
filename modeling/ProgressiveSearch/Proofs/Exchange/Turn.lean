import ProgressiveSearch.Exchange.Call
import ProgressiveSearch.Proofs.Stream

/-! # What one step of an exchange can do

`Exchange.call` and `Exchange.receive` are turned around, as `Session.step` is for
a session: `turn_of_call` says that a step of the caller is one of the kinds of
`Turn`, and `hearing_of_receive` that a step of the receiver is one of the kinds
of `Hearing`.  A turn carries the contexts that it put on the requests, a hearing
the replies that it took.
-/
namespace ProgressiveSearch.Exchange

/-- Puts a context on the requests. -/
def say (x : Exchange) (c : Context) : Exchange :=
  { x with stream := { x.stream with requests := x.stream.requests.put (.context c) } }

/-- The requests take one more context. -/
structure Accepts (x : Exchange) : Prop where
  present : x.stream.requests.receiverGone = false
  room : x.stream.requests.hasRoom = true

/-- Why a wait is cut short. -/
inductive Cut (x : Exchange) : Termination → Prop
  | cancelled (hc : x.cancelled = true) : Cut x .cancelled
  | ended {ending : ReceiveEnd} (hc : x.cancelled = false) (hr : x.receiver = .over ending) :
      Cut x ending.termination

/-- Nothing cuts a wait short, and its moment has come. -/
structure Elapses (x : Exchange) (now deadline : Instant) : Prop where
  uncancelled : x.cancelled = false
  unended : ∀ ending, x.receiver ≠ .over ending
  due : deadline ≤ now

/-- **The kinds of step of the caller**, with what it says. -/
inductive Turn (now : Instant) (x : Exchange) : List Context → Exchange → Prop
  | announces (hs : x.stage = .starting) : Turn now x [] (x.announce now)
  | sendsFirst (hs : x.stage = .offeringFirst) (ha : x.Accepts) :
      Turn now x [x.request.firstContext]
        { x.say x.request.firstContext with firstSent := some now, stage := .resuming }
  | losesFirst (hs : x.stage = .offeringFirst) (hg : x.stream.requests.receiverGone = true) :
      Turn now x [] { x with firstSent := none, stage := .resuming }
  | pauses {sent deadline : Instant} (hs : x.stage = .resuming) (hf : x.firstSent = some sent)
      (hd : sent.after? x.params.contextDelay = some deadline) :
      Turn now x [] { x with receiver := .reading, stage := .pausing deadline }
  | forgoes (hs : x.stage = .resuming) (hf : x.firstSent = none) :
      Turn now x [] ({ x with receiver := .reading }.release .sendFailed)
  | breaks {sent : Instant} (hs : x.stage = .resuming) (hf : x.firstSent = some sent)
      (hd : sent.after? x.params.contextDelay = none) :
      Turn now x [] { x with receiver := .reading }.breakDown
  | isCut {deadline : Instant} {termination : Termination}
      (hs : x.stage = .pausing deadline ∨ x.stage = .deciding deadline)
      (hc : x.Cut termination) : Turn now x [] (x.release termination)
  | resumes {deadline : Instant} (hs : x.stage = .pausing deadline)
      (he : x.Elapses now deadline) : Turn now x [] (x.startSecond now)
  | sendsSecond (hs : x.stage = .offeringSecond) (ha : x.Accepts) :
      Turn now x [x.request.secondContext] ((x.say x.request.secondContext).decide now)
  | losesSecond (hs : x.stage = .offeringSecond) (hg : x.stream.requests.receiverGone = true) :
      Turn now x [] (x.release .sendFailed)
  | decides {deadline : Instant} (hs : x.stage = .deciding deadline)
      (he : x.Elapses now deadline) : Turn now x [] (x.release .decisionTimeout)
  | concludes {termination : Termination} {ending : ReceiveEnd}
      (hs : x.stage = .releasing termination) (hr : x.receiver = .over ending) :
      Turn now x [] (x.conclude now termination)

/-- **The kinds of step of the receiver**, with what it hears. -/
inductive Hearing (now : Instant) (x : Exchange) : List Reply → Exchange → Prop
  | isStopped (hr : x.receiver = .reading) (hs : x.stopping = true) :
      Hearing now x [] (x.endReceiver .stopped)
  | takes {reply : Reply} {rest : List Reply} (hr : x.receiver = .reading)
      (hs : x.stopping = false) (hq : x.stream.replies.queue = reply :: rest) :
      Hearing now x [reply] (x.takeReply.onReply now reply)
  | completes (hr : x.receiver = .reading) (hs : x.stopping = false)
      (hq : x.stream.replies.queue = []) (hg : x.stream.replies.senderGone = true) :
      Hearing now x []
        ((x.record (.completed (x.elapsed now) x.buffer.size)).endReceiver .completed)

section Steps
variable {x x' : Exchange} {now deadline : Instant}

/-- An offer that does not wait either finds the requests refused or is taken. -/
theorem offer_cases {c : Context} {sent : Bool} (h : x.offer? c = some (sent, x')) :
    (sent = false ∧ x' = x ∧ x.stream.requests.receiverGone = true) ∨
      (sent = true ∧ x' = x.say c ∧ x.Accepts) := by
  unfold offer? at h
  split at h
  · rename_i hg
    obtain ⟨rfl, rfl⟩ : false = sent ∧ x = x' := by simpa using h
    exact .inl ⟨rfl, rfl, hg⟩
  · rename_i hg
    split at h
    · rename_i hroom
      obtain ⟨rfl, rfl⟩ := Prod.mk.inj (Option.some.inj h)
      exact .inr ⟨rfl, rfl, by simpa using hg, hroom⟩
    · cases h

/-- What a wake says about the exchange that wakes. -/
theorem wake_cases {w : Wake} (h : x.wake? now deadline = some w) :
    match w with
    | .cancelled => x.Cut .cancelled
    | .received ending => x.Cut ending.termination
    | .elapsed => x.Elapses now deadline := by
  unfold wake? at h
  cases hc : x.cancelled with
  | true =>
    obtain rfl : Wake.cancelled = w := by simpa [hc] using h
    exact .cancelled hc
  | false =>
    rw [if_neg (by simp [hc])] at h
    cases hr : x.receiver with
    | «over» ending =>
      obtain rfl : Wake.received ending = w := by simpa [hr] using h
      exact .ended hc hr
    | absent | reading =>
      obtain ⟨hd, rfl⟩ : deadline ≤ now ∧ Wake.elapsed = w := by simpa [hr] using h
      exact ⟨hc, by simp [hr], hd⟩

theorem turn_resume (hs : x.stage = .resuming) : ∃ said, x.Turn now said x.resume := by
  unfold resume
  dsimp only
  split
  · rename_i hf
    exact ⟨_, .forgoes hs hf⟩
  · rename_i sent hf
    split
    · rename_i hd
      exact ⟨_, .breaks hs hf hd⟩
    · rename_i deadline hd
      exact ⟨_, .pauses hs hf hd⟩

/-- **Every step of the caller is a turn.** -/
theorem turn_of_call (h : x.call now = some x') : ∃ said, x.Turn now said x' := by
  unfold call at h
  cases hs : x.stage with
  | starting =>
    simp only [hs] at h
    obtain rfl := Option.some.inj h
    exact ⟨_, .announces hs⟩
  | offeringFirst =>
    simp only [hs] at h
    obtain ⟨⟨sent, y⟩, ho, rfl⟩ := Option.map_eq_some_iff.mp h
    rcases offer_cases ho with ⟨rfl, rfl, hg⟩ | ⟨rfl, rfl, ha⟩
    · exact ⟨_, .losesFirst hs hg⟩
    · exact ⟨_, .sendsFirst hs ha⟩
  | resuming =>
    simp only [hs] at h
    obtain rfl := Option.some.inj h
    exact turn_resume hs
  | pausing deadline =>
    simp only [hs] at h
    obtain ⟨w, hw, rfl⟩ := Option.map_eq_some_iff.mp h
    cases w with
    | cancelled => exact ⟨_, .isCut (.inl hs) (wake_cases hw)⟩
    | received ending => exact ⟨_, .isCut (.inl hs) (wake_cases hw)⟩
    | elapsed => exact ⟨_, .resumes hs (wake_cases hw)⟩
  | offeringSecond =>
    simp only [hs] at h
    obtain ⟨⟨sent, y⟩, ho, rfl⟩ := Option.map_eq_some_iff.mp h
    rcases offer_cases ho with ⟨rfl, rfl, hg⟩ | ⟨rfl, rfl, ha⟩
    · exact ⟨_, .losesSecond hs hg⟩
    · exact ⟨_, .sendsSecond hs ha⟩
  | deciding deadline =>
    simp only [hs] at h
    obtain ⟨w, hw, rfl⟩ := Option.map_eq_some_iff.mp h
    cases w with
    | cancelled => exact ⟨_, .isCut (.inr hs) (wake_cases hw)⟩
    | received ending => exact ⟨_, .isCut (.inr hs) (wake_cases hw)⟩
    | elapsed => exact ⟨_, .decides hs (wake_cases hw)⟩
  | releasing termination =>
    simp only [hs] at h
    cases hr : x.receiver with
    | «over» ending =>
      simp only [hr] at h
      obtain rfl := Option.some.inj h
      exact ⟨_, .concludes hs hr⟩
    | absent | reading => simp [hr] at h
  | «over» o => simp [hs] at h
  | brokenDown => simp [hs] at h

/-- **Every step of the receiver is a hearing.** -/
theorem hearing_of_receive (h : x.receive now = some x') : ∃ heard, x.Hearing now heard x' := by
  unfold receive at h
  cases hr : x.receiver with
  | absent | «over» _ => simp [hr] at h
  | reading =>
    simp only [hr] at h
    split at h
    · rename_i hs
      obtain rfl := Option.some.inj h
      exact ⟨_, .isStopped hr hs⟩
    · rename_i hs
      have hs : x.stopping = false := by simpa using hs
      split at h
      · rename_i reply rest hq
        obtain rfl := Option.some.inj h
        exact ⟨_, .takes hr hs hq⟩
      · rename_i hq
        split at h
        · rename_i hg
          obtain rfl := Option.some.inj h
          exact ⟨_, .completes hr hs hq hg⟩
        · cases h

/-! ## What steps leave alone -/

/-- To decide is to half-close and to wait for a moment, or to break down. -/
theorem decide_spec (x : Exchange) (now : Instant) :
    ∃ stage source drawn journal, x.decide now =
        { x.closeRequests with stage, source, drawn, journal } ∧
      (stage = .brokenDown ∨ ∃ deadline, stage = .deciding deadline) := by
  unfold decide
  dsimp only
  split
  · exact ⟨.brokenDown, _, _, _, rfl, .inl rfl⟩
  · split
    · exact ⟨.brokenDown, _, _, _, rfl, .inl rfl⟩
    · exact ⟨.deciding _, _, _, _, rfl, .inr ⟨_, rfl⟩⟩

/-- A caller that does not break down over its decision has drawn a timeout. -/
theorem decide_draws (x : Exchange) (now : Instant) :
    (x.decide now).stage = .brokenDown ∨
      (∃ deadline, (x.decide now).stage = .deciding deadline) ∧
        (x.decide now).drawn.isSome = true := by
  unfold decide
  dsimp only
  split
  · exact .inl rfl
  · split
    · exact .inl rfl
    · exact .inr ⟨⟨_, rfl⟩, rfl⟩

/-- What a turn of the caller leaves alone; and what it says goes to the end of
the requests. -/
structure Speaks (x : Exchange) (said : List Context) (x' : Exchange) : Prop where
  request : x'.request = x.request
  buffer : x'.buffer = x.buffer
  replies : x'.stream.replies = x.stream.replies
  refused : x'.stream.requests.receiverGone = x.stream.requests.receiverGone
  queue : x'.stream.requests.queue = x.stream.requests.queue ++ said.map .context

theorem Turn.speaks {said : List Context} (h : x.Turn now said x') : x.Speaks said x' := by
  cases h with
  | sendsFirst _ _ => exact ⟨rfl, rfl, rfl, rfl, rfl⟩
  | sendsSecond _ _ =>
    obtain ⟨stage, source, drawn, journal, he, -⟩ :=
      (x.say x.request.secondContext).decide_spec now
    rw [he]
    exact ⟨rfl, rfl, rfl, rfl, rfl⟩
  | _ => exact ⟨rfl, rfl, rfl, rfl, (List.append_nil _).symm⟩

/-- The timing of a call is fixed. -/
theorem Turn.params {said : List Context} (h : x.Turn now said x') : x'.params = x.params := by
  cases h with
  | sendsSecond _ _ =>
    obtain ⟨stage, source, drawn, journal, he, -⟩ :=
      (x.say x.request.secondContext).decide_spec now
    rw [he]
    rfl
  | _ => rfl

/-- The caller starts the receiver when it is done with the first context, and
leaves it alone otherwise. -/
theorem Turn.receiver {said : List Context} (h : x.Turn now said x') :
    x'.receiver = x.receiver ∨ x.stage = .resuming ∧ x'.receiver = .reading := by
  cases h with
  | pauses hs _ _ | forgoes hs _ | breaks hs _ _ => exact .inr ⟨hs, rfl⟩
  | sendsSecond _ _ =>
    obtain ⟨stage, source, drawn, journal, he, -⟩ :=
      (x.say x.request.secondContext).decide_spec now
    exact .inl (by rw [he]; rfl)
  | _ => exact .inl rfl

/-- A receiver that was told to stop is not told otherwise. -/
theorem Turn.stopping {said : List Context} (h : x.Turn now said x') (hs : x.stopping = true) :
    x'.stopping = true := by
  cases h with
  | sendsSecond _ _ =>
    obtain ⟨stage, source, drawn, journal, he, -⟩ :=
      (x.say x.request.secondContext).decide_spec now
    rw [he]
    exact hs
  | isCut _ _ | decides _ _ | losesSecond _ _ | forgoes _ _ => rfl
  | _ => exact hs

/-- What a hearing leaves alone. -/
structure Minds (x x' : Exchange) : Prop where
  request : x'.request = x.request
  stage : x'.stage = x.stage
  firstSent : x'.firstSent = x.firstSent
  requests : x'.stream.requests = x.stream.requests
  closed : x'.stream.replies.senderGone = x.stream.replies.senderGone

theorem Hearing.minds {heard : List Reply} (h : x.Hearing now heard x') : x.Minds x' := by
  cases h with
  | isStopped _ _ | completes _ _ _ _ => exact ⟨rfl, rfl, rfl, rfl, rfl⟩
  | @takes reply _ _ _ _ => cases reply <;> exact ⟨rfl, rfl, rfl, rfl, rfl⟩

/-- A hearing leaves alone the timing of the call, drawn or not. -/
theorem Hearing.timing {heard : List Reply} (h : x.Hearing now heard x') :
    x'.drawn = x.drawn ∧ x'.params = x.params := by
  cases h with
  | isStopped _ _ | completes _ _ _ _ => exact ⟨rfl, rfl⟩
  | @takes reply _ _ _ _ => cases reply <;> exact ⟨rfl, rfl⟩

/-- It leaves alone what the caller has told the receiver, when it started, what it draws
from, and whether it was given up. -/
theorem Hearing.keeps {heard : List Reply} (h : x.Hearing now heard x') :
    x'.stopping = x.stopping ∧ x'.startedAt = x.startedAt ∧ x'.source = x.source ∧
      x'.cancelled = x.cancelled := by
  cases h with
  | isStopped _ _ | completes _ _ _ _ => exact ⟨rfl, rfl, rfl, rfl⟩
  | @takes reply _ _ _ _ => cases reply <;> exact ⟨rfl, rfl, rfl, rfl⟩

/-- Whoever reads after a hearing read before it. -/
theorem Hearing.present {heard : List Reply} (h : x.Hearing now heard x')
    (hg : x'.stream.replies.receiverGone = false) : x.stream.replies.receiverGone = false := by
  cases h with
  | isStopped _ _ | completes _ _ _ _ => cases hg
  | @takes reply _ _ _ _ =>
    cases reply with
    | batch b => exact hg
    | failed status => cases hg
    | fault => cases hg

/-- A hearing stores the batches that it hears. -/
theorem Hearing.buffer {heard : List Reply} (h : x.Hearing now heard x') :
    x'.buffer = (heard.filterMap Reply.batch?).foldl RevisionBuffer.insert x.buffer := by
  cases h with
  | isStopped _ _ | completes _ _ _ _ => rfl
  | @takes reply _ _ _ _ => cases reply <;> rfl

/-- A hearing either goes on, and has taken the oldest reply, or is the last. -/
theorem Hearing.receiver {heard : List Reply} (h : x.Hearing now heard x') :
    x.receiver = .reading ∧ heard <+: x.stream.replies.queue ∧
      ((x'.receiver = .reading ∧ x'.stream.replies.receiverGone = x.stream.replies.receiverGone ∧
        x.stream.replies.queue = heard ++ x'.stream.replies.queue) ∨
      ∃ ending, x'.receiver = .over ending) := by
  cases h with
  | isStopped hr _ => exact ⟨hr, List.nil_prefix, .inr ⟨_, rfl⟩⟩
  | completes hr _ _ _ => exact ⟨hr, List.nil_prefix, .inr ⟨_, rfl⟩⟩
  | @takes reply rest hr _ hq =>
    refine ⟨hr, hq ▸ (List.prefix_append [reply] rest), ?_⟩
    cases reply with
    | batch b =>
      refine .inl ⟨hr, rfl, ?_⟩
      show _ = [Reply.batch b] ++ x.stream.replies.queue.tail
      rw [hq]
      rfl
    | failed status => exact .inr ⟨_, rfl⟩
    | fault => exact .inr ⟨_, rfl⟩

/-- Whoever has heard something is there. -/
theorem Hearing.receiver_ne_absent {heard : List Reply} (h : x.Hearing now heard x') :
    x'.receiver ≠ .absent := by
  rcases h.receiver.2.2 with ⟨hr, -⟩ | ⟨ending, hr⟩
  · simp [hr]
  · simp [hr]

end Steps
end ProgressiveSearch.Exchange
