import ProgressiveSearch.Session.Step

/-! # What one step of a session can do

`Session.step` is a function with many branches.  This module turns it around:
`transition_of_step` says that whatever step a session has taken, it is one of
the eight kinds of `Transition`, and names for each kind what must have been
true before and what is true after.  A step that ends the session is a
`Transition.ends`; the eleven ways in which that can happen are the `Exit`s.

Every transition carries its **deeds** (`Deeds`): the contexts it read, the
questions it put to the ranker, the replies it queued.  The deeds are read off
the two states (`deeds`), not stored by the session, and `Transition.deeds_eq`
proves that what is read off is what the transition says.
-/
namespace ProgressiveSearch.Session

/-- The context whose arrival an event reports. -/
def Event.context? : Event → Option Context
  | .received _ c _ => some c
  | _ => none

/-- What a session does in one step, as others can see it. -/
structure Deeds where
  /-- The contexts taken off the requests. -/
  reads : List Context
  /-- The contexts handed to the ranker, each with the revision asked for. -/
  asks : List (Context × UInt32)
  /-- The replies put on their channel. -/
  puts : List Reply
  deriving DecidableEq

/-- A step that nobody sees. -/
def Deeds.none : Deeds := ⟨[], [], []⟩

/-- What a session asked its ranker between two states: a delivery that was not
under way before answers a new question. -/
def asked (s s' : Session) : List (Context × UInt32) :=
  match s.activity, s'.activity with
  | .selecting, .delivering d => [(d.context, s'.dueRevision)]
  | _, _ => []

/-- The deeds of the step from `s` to `s'`. -/
def deeds (s s' : Session) : Deeds where
  reads := (s'.journal.drop s.journal.length).filterMap Event.context?
  asks := asked s s'
  puts := s'.stream.replies.queue.drop s.stream.replies.queue.length

/-- What becomes of a status that the session tries to queue. -/
def offered (s : Session) (status : Status) : List Reply :=
  if s.stream.replies.receiverGone then []
  else if s.stream.replies.hasRoom then [.failed status]
  else []

/-- Events that tell of these arrivals and of no ranking. -/
def Tells (events : List Event) (contexts : List Context) : Prop :=
  events.filterMap Event.context? = contexts ∧ events.filterMap Event.ranked? = []

/-! ## Guards -/

/-- The session is at its select, and neither the service nor the reader of its
replies ends it there. -/
structure Attends (stopping : Bool) (s : Session) : Prop where
  selecting : s.activity = .selecting
  serving : stopping = false
  read : s.stream.replies.receiverGone = false

/-- The session gets to look at its requests: no timer has gone off either. -/
structure Listens (now : Instant) (stopping : Bool) (s : Session) : Prop
    extends Attends stopping s where
  untimed : s.timer? now = none
  isOpen : s.requestsOpen = true

/-- A batch is waiting and there is room for it. -/
structure Delivers (d : Delivery) (s : Session) : Prop where
  delivering : s.activity = .delivering d
  read : s.stream.replies.receiverGone = false
  room : s.stream.replies.hasRoom = true

/-! ## Ends -/

/-- **The ways out.**  `Exit now stopping s deeds r`: a step from `s` ends the
session with `r`, and `deeds` is what it does on the way. -/
inductive Exit (now : Instant) (stopping : Bool) (s : Session) : Deeds → Result → Prop
  | breaksAtStart (he : s.activity = .entering)
      (ht : now.after? s.config.idleTimeout = none) : Exit now stopping s .none .brokenDown
  | stops (hs : s.activity = .selecting) (ht : stopping = true) :
      Exit now stopping s ⟨[], [], s.offered Failure.shutdown.status⟩ (.failed .shutdown)
  | deserted (hs : s.activity = .selecting) (ht : stopping = false)
      (hr : s.stream.replies.receiverGone = true) : Exit now stopping s .none (.failed .peerGone)
  | unarmed {deadline : Instant} (ha : s.Attends stopping) (hp : s.phase = .awaitingFinal deadline)
      (hd : deadline ≤ now) (hc : s.lastContext = none) :
      Exit now stopping s .none (.failed (.channel "deferred revision armed without a context"))
  | idles (ha : s.Attends stopping) (hp : s.phase.awaitsContext = true)
      (hd : s.idleDeadline ≤ now) :
      Exit now stopping s .none (.reported ⟨s.tally, .idleTimeout⟩)
  | rejects {c : Context} {rest : List Arrival} (hl : s.Listens now stopping)
      (hq : s.stream.requests.queue = .context c :: rest)
      (hp : s.phase.awaitsContext = false) (hs : s.config.strict = true) :
      Exit now stopping s
        ⟨[c], [], s.offered
          (Failure.protocolViolation (excessReason (Word.next32 s.tally.requestsSeen))).status⟩
        (.failed (.protocolViolation (excessReason (Word.next32 s.tally.requestsSeen))))
  | breaks {status : Status} {rest : List Arrival} (hl : s.Listens now stopping)
      (hq : s.stream.requests.queue = .failed status :: rest) :
      Exit now stopping s ⟨[], [], s.offered status⟩ (.failed (.transport status))
  | closesEarly (hl : s.Listens now stopping) (hq : s.stream.requests.queue = [])
      (hg : s.stream.requests.senderGone = true) (hp : s.phase.awaitsContext = true) :
      Exit now stopping s .none (.reported ⟨s.tally, .halfClosedEarly⟩)
  | loses {d : Delivery} (hd : s.activity = .delivering d)
      (hr : s.stream.replies.receiverGone = true) : Exit now stopping s .none (.failed .peerGone)
  | unnameable {d : Delivery} (hd : s.Delivers d)
      (ht : s.phase = .awaitingFirst ∧ d.receivedAt.after? s.config.idleTimeout = none ∨
        s.phase = .awaitingSecond ∧ d.receivedAt.after? s.config.finalDelay = none) :
      Exit now stopping s ⟨[], [], [.batch d.batch]⟩ .brokenDown
  | completes {d : Delivery} (hd : s.Delivers d) (hp : s.phase.awaitsContext = false) :
      Exit now stopping s ⟨[], [], [.batch d.batch]⟩
        (.reported ⟨{ s.tally with batchesSent := Word.next32 s.tally.batchesSent }, .completed⟩)

/-- `s'` is `s` after it has left its stream with a result, having done `deeds`
last. -/
structure Left (s : Session) (deeds : Deeds) (r : Result) (s' : Session) : Prop where
  activity : s'.activity = .over r
  phase : s'.phase = .closed
  config : s'.config = s.config
  ranker : s'.ranker = s.ranker
  journal : ∃ events, s'.journal = s.journal ++ events ∧ Tells events deeds.reads
  asks : deeds.asks = []
  replies : s'.stream.replies =
    { s.stream.replies with queue := s.stream.replies.queue ++ deeds.puts, senderGone := true }
  requests : s'.stream.requests.receiverGone = true

/-! ## Transitions -/

/-- **The kinds of step**, with their deeds and the state they lead to. -/
inductive Transition (now : Instant) (stopping : Bool) (s : Session) : Deeds → Session → Prop
  | begins {deadline : Instant} (he : s.activity = .entering)
      (ht : now.after? s.config.idleTimeout = some deadline) :
      Transition now stopping s .none { s with idleDeadline := deadline, activity := .selecting }
  | answers {c : Context} {rest : List Arrival} (hl : s.Listens now stopping)
      (hq : s.stream.requests.queue = .context c :: rest)
      (hp : s.phase.awaitsContext = true) :
      Transition now stopping s ⟨[c], [(c, s.dueRevision)], []⟩
        { s with
          activity := .delivering ⟨s.ranker c s.dueRevision, c, now⟩
          tally := { s.tally with requestsSeen := Word.next32 s.tally.requestsSeen }
          stream := { s.stream with requests := { s.stream.requests with queue := rest } }
          journal := s.journal ++ [.received (Word.next32 s.tally.requestsSeen) c (s.elapsed now)] ++
            .sending s.dueRevision (s.ranker c s.dueRevision).items.length (s.elapsed now) ::
              listing s.dueRevision (s.ranker c s.dueRevision).items }
  | defers {c : Context} {deadline : Instant} (ha : s.Attends stopping)
      (hp : s.phase = .awaitingFinal deadline) (hd : deadline ≤ now) (hc : s.lastContext = some c) :
      Transition now stopping s ⟨[], [(c, s.dueRevision)], []⟩
        { s with
          lastContext := none
          activity := .delivering ⟨s.ranker c s.dueRevision, c, now⟩
          journal := s.journal ++
            .sending s.dueRevision (s.ranker c s.dueRevision).items.length (s.elapsed now) ::
              listing s.dueRevision (s.ranker c s.dueRevision).items }
  | ignores {c : Context} {rest : List Arrival} (hl : s.Listens now stopping)
      (hq : s.stream.requests.queue = .context c :: rest)
      (hp : s.phase.awaitsContext = false) (hs : s.config.strict = false) :
      Transition now stopping s ⟨[c], [], []⟩
        { s with
          tally := { s.tally with
            requestsSeen := Word.next32 s.tally.requestsSeen
            extraRequests := Word.next32 s.tally.extraRequests }
          stream := { s.stream with requests := { s.stream.requests with queue := rest } }
          journal := s.journal ++ [.received (Word.next32 s.tally.requestsSeen) c (s.elapsed now)] ++
            [.ignored (Word.next32 s.tally.requestsSeen)] }
  | halfCloses (hl : s.Listens now stopping) (hq : s.stream.requests.queue = [])
      (hg : s.stream.requests.senderGone = true) (hp : s.phase.awaitsContext = false) :
      Transition now stopping s .none
        { s with
          requestsOpen := false
          journal := s.journal ++ [.halfClosed s.tally.requestsSeen (s.elapsed now)] }
  | deliversFirst {d : Delivery} {deadline : Instant} (hd : s.Delivers d)
      (hp : s.phase = .awaitingFirst)
      (ht : d.receivedAt.after? s.config.idleTimeout = some deadline) :
      Transition now stopping s ⟨[], [], [.batch d.batch]⟩
        { s with
          activity := .selecting
          phase := .awaitingSecond
          lastContext := some d.context
          idleDeadline := deadline
          tally := { s.tally with batchesSent := Word.next32 s.tally.batchesSent }
          stream := { s.stream with replies := s.stream.replies.put (.batch d.batch) } }
  | deliversSecond {d : Delivery} {deadline : Instant} (hd : s.Delivers d)
      (hp : s.phase = .awaitingSecond)
      (ht : d.receivedAt.after? s.config.finalDelay = some deadline) :
      Transition now stopping s ⟨[], [], [.batch d.batch]⟩
        { s with
          activity := .selecting
          phase := .awaitingFinal deadline
          lastContext := some d.context
          tally := { s.tally with batchesSent := Word.next32 s.tally.batchesSent }
          stream := { s.stream with replies := s.stream.replies.put (.batch d.batch) }
          journal := s.journal ++ [.scheduled s.config.finalDelay] }
  | ends {deeds : Deeds} {r : Result} {s' : Session} (he : Exit now stopping s deeds r)
      (hl : s.Left deeds r s') : Transition now stopping s deeds s'

/-! ## Every step is a transition -/

section Step
variable {now : Instant} {stopping : Bool} {s s' : Session}

theorem left_leave {deeds : Deeds} {r : Result} {t : Session} (hc : t.config = s.config)
    (hk : t.ranker = s.ranker)
    (hj : ∃ events, t.journal = s.journal ++ events ∧ Tells events deeds.reads)
    (ha : deeds.asks = [])
    (hr : t.stream.replies =
      { s.stream.replies with queue := s.stream.replies.queue ++ deeds.puts }) :
    s.Left deeds r (t.leave r) where
  activity := rfl
  phase := rfl
  config := hc
  ranker := hk
  journal := hj
  asks := ha
  replies := by simp [leave, Stream.leaveService, Channel.dropSender, hr]
  requests := rfl

/-- A failure is left with nothing but the news, if any, that the deferred
revision is called off. -/
theorem fail_eq (s : Session) (f : Failure) : ∃ events,
    s.fail f = ({ s with journal := s.journal ++ events }).leave (.failed f) ∧
      Tells events [] := by
  unfold fail
  split
  · exact ⟨[.deferredCancelled f], rfl, rfl, rfl⟩
  · exact ⟨[], by simp, rfl, rfl⟩

theorem left_fail {deeds : Deeds} {f : Failure} {t : Session} (hc : t.config = s.config)
    (hk : t.ranker = s.ranker)
    (hj : ∃ events, t.journal = s.journal ++ events ∧ Tells events deeds.reads)
    (ha : deeds.asks = [])
    (hr : t.stream.replies =
      { s.stream.replies with queue := s.stream.replies.queue ++ deeds.puts }) :
    s.Left deeds (.failed f) (t.fail f) := by
  obtain ⟨later, hf, hlater⟩ := t.fail_eq f
  obtain ⟨events, he, hevents⟩ := hj
  rw [hf]
  refine left_leave hc hk ⟨events ++ later, ?_, ?_, ?_⟩ ha hr
  · simp [he]
  · rw [List.filterMap_append, hevents.1, hlater.1, List.append_nil]
  · rw [List.filterMap_append, hevents.2, hlater.2, List.append_nil]

theorem replies_sendStatus (s : Session) (status : Status) :
    (s.sendStatus status).stream.replies =
      { s.stream.replies with queue := s.stream.replies.queue ++ s.offered status } := by
  unfold sendStatus offered Channel.offer Channel.trySend
  dsimp only
  split
  · simp
  · split <;> simp [Channel.put]

/-- A listing tells of no arrival and of no ranking. -/
theorem tells_listing (revision : UInt32) (items : List Item) :
    Tells (listing revision items) [] := by
  constructor <;> refine List.filterMap_eq_nil_iff.mpr fun e he => ?_
  · obtain ⟨entry, -, rfl⟩ := List.mem_map.mp he
    rfl
  · obtain ⟨entry, -, rfl⟩ := List.mem_map.mp he
    rfl

/-- The events of a ranking tell of no arrival, and of one revision asked for. -/
theorem filterMap_ranking (revision : UInt32) (items : List Item) (elapsed : Duration) :
    (Event.sending revision items.length elapsed :: listing revision items).filterMap
      Event.context? = [] ∧
    (Event.sending revision items.length elapsed :: listing revision items).filterMap
      Event.ranked? = [revision] := by
  obtain ⟨hc, hr⟩ := tells_listing revision items
  constructor
  · rw [List.filterMap_cons, hc]
    rfl
  · rw [List.filterMap_cons, hr]
    rfl

/-- The book with one more context that was not asked for. -/
def countExtra (s : Session) : Session :=
  { s with tally := { s.tally with extraRequests := Word.next32 s.tally.extraRequests } }

theorem excess_of_strict (h : s.config.strict = true) :
    s.excess = (((s.countExtra).record (.rejected (excessReason s.tally.requestsSeen))).sendStatus
      (Failure.protocolViolation (excessReason s.tally.requestsSeen)).status).fail
        (.protocolViolation (excessReason s.tally.requestsSeen)) :=
  if_pos h

theorem excess_of_lenient (h : s.config.strict = false) :
    s.excess = (s.countExtra).record (.ignored s.tally.requestsSeen) :=
  if_neg (by simp [h])

theorem transition_begin (he : s.activity = .entering) :
    ∃ deeds, s.Transition now stopping deeds (s.begin now) := by
  unfold begin
  cases ht : now.after? s.config.idleTimeout with
  | none =>
    exact ⟨_, .ends (.breaksAtStart he ht) (left_leave rfl rfl ⟨[], by simp, rfl, rfl⟩ rfl
      (by simp [Deeds.none]))⟩
  | some deadline => exact ⟨_, .begins he ht⟩

theorem transition_onContext {c : Context} {rest : List Arrival} (hl : s.Listens now stopping)
    (hq : s.stream.requests.queue = .context c :: rest) :
    ∃ deeds, s.Transition now stopping deeds (s.takeArrival.onContext now c) := by
  have htally : s.takeArrival.tally = s.tally := rfl
  unfold onContext
  rw [htally]
  cases hp : s.phase.awaitsContext with
  | true =>
    have h : s.Transition now stopping _ _ := .answers hl hq hp
    exact ⟨_, by simpa [record, takeArrival, hp, hq, startDelivery, dueRevision, elapsed] using h⟩
  | false =>
    -- the third context or a later one: the configuration decides what becomes of it
    simp only [record, takeArrival, hp, Bool.false_eq_true, if_false]
    cases hs : s.config.strict with
    | true =>
      rw [excess_of_strict]
      · exact ⟨_, .ends (.rejects hl hq hp hs)
          (left_fail rfl rfl ⟨[_, _], List.append_assoc .., rfl, rfl⟩ rfl
            (replies_sendStatus _ _))⟩
      · exact hs
    | false =>
      rw [excess_of_lenient]
      · have h : s.Transition now stopping _ _ := .ignores hl hq hp hs
        exact ⟨_, by simpa [hq, elapsed, countExtra, record] using h⟩
      · exact hs

theorem transition_onFailure {status : Status} {rest : List Arrival} (hl : s.Listens now stopping)
    (hq : s.stream.requests.queue = .failed status :: rest) :
    ∃ deeds, s.Transition now stopping deeds (s.takeArrival.onFailure now status) :=
  ⟨_, .ends (.breaks hl hq) (left_fail rfl rfl ⟨[_], rfl, rfl, rfl⟩ rfl (replies_sendStatus _ _))⟩

theorem transition_onHalfClose (hl : s.Listens now stopping) (hq : s.stream.requests.queue = [])
    (hg : s.stream.requests.senderGone = true) :
    ∃ deeds, s.Transition now stopping deeds (s.onHalfClose now) := by
  by_cases hp : s.phase.awaitsContext = true
  · rw [show s.onHalfClose now = _ from if_pos hp]
    exact ⟨_, .ends (.closesEarly hl hq hg hp)
      (left_leave rfl rfl ⟨[_, _], List.append_assoc .., rfl, rfl⟩ rfl
        (by simp [record, Deeds.none]))⟩
  · rw [show s.onHalfClose now = _ from if_neg hp]
    exact ⟨_, .halfCloses hl hq hg (by simpa using hp)⟩

theorem transition_onFinal {deadline : Instant} (ha : s.Attends stopping)
    (hp : s.phase = .awaitingFinal deadline) (hd : deadline ≤ now) :
    ∃ deeds, s.Transition now stopping deeds (s.onFinal now) := by
  unfold onFinal
  cases hc : s.lastContext with
  | none =>
    exact ⟨_, .ends (.unarmed ha hp hd hc) (left_fail rfl rfl ⟨[], by simp, rfl, rfl⟩ rfl
      (by simp [Deeds.none]))⟩
  | some c => exact ⟨_, Transition.defers ha hp hd hc⟩

theorem transition_delivered {d : Delivery} (hd : s.Delivers d) :
    ∃ deeds, s.Transition now stopping deeds (delivered
      { s with stream := { s.stream with replies := s.stream.replies.put (.batch d.batch) } }
      now d) := by
  unfold delivered
  dsimp only
  cases hp : s.phase with
  | awaitingFirst =>
    dsimp only
    cases ht : d.receivedAt.after? s.config.idleTimeout with
    | none =>
      exact ⟨_, .ends (.unnameable hd (.inl ⟨hp, ht⟩))
        (left_leave rfl rfl ⟨[], by simp, rfl, rfl⟩ rfl rfl)⟩
    | some deadline => exact ⟨_, .deliversFirst hd hp ht⟩
  | awaitingSecond =>
    dsimp only
    cases ht : d.receivedAt.after? s.config.finalDelay with
    | none =>
      exact ⟨_, .ends (.unnameable hd (.inr ⟨hp, ht⟩))
        (left_leave rfl rfl ⟨[], by simp, rfl, rfl⟩ rfl rfl)⟩
    | some deadline => exact ⟨_, .deliversSecond hd hp ht⟩
  | awaitingFinal deadline =>
    exact ⟨_, .ends (.completes hd (by rw [hp]; rfl))
      (left_leave rfl rfl ⟨[_], rfl, rfl, rfl⟩ rfl rfl)⟩
  | closed =>
    exact ⟨_, .ends (.completes hd (by rw [hp]; rfl))
      (left_leave rfl rfl ⟨[_], rfl, rfl, rfl⟩ rfl rfl)⟩

theorem transition_deliver {d : Delivery} (ha : s.activity = .delivering d)
    (h : s.deliver? now d = some s') : ∃ deeds, s.Transition now stopping deeds s' := by
  unfold deliver? at h
  cases hr : s.stream.replies.receiverGone with
  | true =>
    rw [if_pos hr] at h
    obtain rfl := Option.some.inj h
    exact ⟨_, .ends (.loses ha hr)
      (left_fail rfl rfl ⟨[_], rfl, rfl, rfl⟩ rfl (by simp [record, Deeds.none]))⟩
  | false =>
    rw [if_neg (by simp [hr])] at h
    split at h
    · rename_i hroom
      obtain rfl := Option.some.inj h
      exact transition_delivered ⟨ha, hr, hroom⟩
    · cases h

/-- What a signal says about the session that has it. -/
theorem transition_react {g : Signal} (hs : s.activity = .selecting)
    (h : s.signal? now stopping = some g) :
    ∃ deeds, s.Transition now stopping deeds (s.react now g) := by
  unfold signal? at h
  cases hstop : stopping with
  | true =>
    rw [if_pos hstop] at h
    obtain rfl := Option.some.inj h
    exact ⟨_, .ends (.stops hs rfl)
      (left_fail rfl rfl ⟨[], by simp [sendStatus], rfl, rfl⟩ rfl (replies_sendStatus _ _))⟩
  | false =>
    rw [if_neg (by simp [hstop])] at h
    cases hr : s.stream.replies.receiverGone with
    | true =>
      rw [if_pos hr] at h
      obtain rfl := Option.some.inj h
      exact ⟨_, .ends (.deserted hs rfl hr)
        (left_fail rfl rfl ⟨[_], rfl, rfl, rfl⟩ rfl (by simp [record, Deeds.none]))⟩
    | false =>
      rw [if_neg (by simp [hr])] at h
      -- the timers come before what is on the requests
      have ha : s.Attends false := ⟨hs, rfl, hr⟩
      rcases Option.or_eq_some_iff.mp h with ht | ⟨ht, harr⟩
      · unfold timer? at ht
        cases hp : s.phase with
        | awaitingFirst | awaitingSecond =>
          simp only [hp] at ht
          split at ht
          · rename_i hd
            obtain rfl := Option.some.inj ht
            exact ⟨_, .ends (.idles ha (by rw [hp]; rfl) hd)
              (left_leave rfl rfl ⟨[_, _], List.append_assoc .., rfl, rfl⟩ rfl
                (by simp [record, Deeds.none]))⟩
          · cases ht
        | awaitingFinal deadline =>
          simp only [hp] at ht
          split at ht
          · rename_i hd
            obtain rfl := Option.some.inj ht
            exact transition_onFinal ha hp hd
          · cases ht
        | closed => simp [hp] at ht
      · unfold arrival? at harr
        split at harr
        · rename_i hopen
          have hl : s.Listens now false := { ha with untimed := ht, isOpen := hopen }
          split at harr
          · rename_i a rest hq
            obtain rfl := Option.some.inj harr
            cases a with
            | context c => exact transition_onContext hl hq
            | failed status => exact transition_onFailure hl hq
          · rename_i hq
            split at harr
            · rename_i hg
              obtain rfl := Option.some.inj harr
              exact transition_onHalfClose hl hq hg
            · cases harr
        · cases harr

/-- **Every step is a transition.** -/
theorem transition_of_step (h : s.step now stopping = some s') :
    ∃ deeds, s.Transition now stopping deeds s' := by
  unfold step at h
  split at h
  · rename_i he
    obtain rfl := Option.some.inj h
    exact transition_begin he
  · rename_i hs
    obtain ⟨g, hg, rfl⟩ := Option.map_eq_some_iff.mp h
    exact transition_react hs hg
  · rename_i d hd
    exact transition_deliver hd h
  · cases h

/-! ## Waiting -/

/-- The session is at its select and nothing that it looks for is there. -/
structure Idles (now : Instant) (stopping : Bool) (s : Session) : Prop
    extends Attends stopping s where
  untimed : s.timer? now = none
  unanswered : s.arrival? = none

/-- A session that is not over and takes no step either idles or waits for room. -/
theorem waits_of_step_none (h : s.step now stopping = none) (ho : ∀ r, s.activity ≠ .over r) :
    s.Idles now stopping ∨ ∃ d, s.activity = .delivering d ∧
      s.stream.replies.receiverGone = false ∧ s.stream.replies.hasRoom = false := by
  unfold step at h
  split at h
  · cases h
  · rename_i hs
    have hsignal := Option.map_eq_none_iff.mp h
    unfold signal? at hsignal
    split at hsignal
    · cases hsignal
    · rename_i hstop
      split at hsignal
      · cases hsignal
      · rename_i hgone
        obtain ⟨htimer, harrival⟩ := Option.or_eq_none_iff.mp hsignal
        exact .inl ⟨⟨hs, by simpa using hstop, by simpa using hgone⟩, htimer, harrival⟩
  · rename_i d hd
    unfold deliver? at h
    split at h
    · cases h
    · rename_i hgone
      split at h
      · cases h
      · rename_i hroom
        exact .inr ⟨d, hd, by simpa using hgone, by simpa using hroom⟩
  · rename_i r hr
    exact absurd hr (ho r)

/-! ## Facts about every transition -/

/-- **The deeds of a transition are those that its two states show.** -/
theorem Transition.deeds_eq {e : Deeds} (h : s.Transition now stopping e s') : deeds s s' = e := by
  cases h with
  | begins he _ => simp [deeds, asked, he, Deeds.none]
  | answers hl _ _ =>
    simp only [deeds, asked, hl.selecting, List.append_assoc, List.drop_left, List.drop_length,
      List.filterMap_append, (filterMap_ranking _ _ _).1]
    rfl
  | defers ha _ _ _ =>
    simp only [deeds, asked, ha.selecting, List.drop_left, List.drop_length,
      (filterMap_ranking _ _ _).1]
    rfl
  | ignores hl _ _ _ => simp [deeds, asked, hl.selecting, Event.context?]
  | halfCloses hl _ _ _ => simp [deeds, asked, hl.selecting, Event.context?, Deeds.none]
  | deliversFirst hd _ _ => simp [deeds, asked, hd.delivering, Channel.put]
  | deliversSecond hd _ _ => simp [deeds, asked, hd.delivering, Channel.put, Event.context?]
  | ends he hl =>
    obtain ⟨events, hj, hreads, -⟩ := hl.journal
    have hask : asked s s' = [] := by
      unfold asked
      rw [hl.activity]
      split <;> simp_all
    unfold deeds
    rw [hj, hl.replies, hask]
    simp [hreads, ← hl.asks]

/-- **The journal names every question to the ranker**, by its revision. -/
theorem Transition.ranked_eq {e : Deeds} (h : s.Transition now stopping e s') :
    s'.ranked = s.ranked ++ e.asks.map Prod.snd := by
  unfold ranked
  cases h with
  | begins _ _ | deliversFirst _ _ _ => simp [Deeds.none]
  | answers _ _ _ =>
    simp only [List.filterMap_append, (filterMap_ranking _ _ _).2, List.append_assoc]
    rfl
  | defers _ _ _ _ =>
    simp only [List.filterMap_append, (filterMap_ranking _ _ _).2]
    rfl
  | ignores _ _ _ _ | halfCloses _ _ _ _ | deliversSecond _ _ _ =>
    simp [Event.ranked?, Deeds.none]
  | ends _ hl =>
    obtain ⟨events, hj, -, hranked⟩ := hl.journal
    rw [hj, List.filterMap_append, hranked, hl.asks]
    rfl

/-- A session ends before it is over. -/
theorem Exit.not_over {e : Deeds} {r : Result} (h : s.Exit now stopping e r) (r' : Result) :
    s.activity ≠ .over r' := by
  have ha : s.activity = .entering ∨ s.activity = .selecting ∨ ∃ d, s.activity = .delivering d := by
    cases h with
    | breaksAtStart he _ => exact .inl he
    | stops hs _ | deserted hs _ _ => exact .inr (.inl hs)
    | unarmed ha _ _ _ | idles ha _ _ => exact .inr (.inl ha.selecting)
    | rejects hl _ _ _ | breaks hl _ | closesEarly hl _ _ _ =>
      exact .inr (.inl hl.selecting)
    | loses hd _ => exact .inr (.inr ⟨_, hd⟩)
    | unnameable hd _ | completes hd _ => exact .inr (.inr ⟨_, hd.delivering⟩)
  rcases ha with ha | ha | ⟨d, ha⟩ <;> simp [ha]

/-- A session that is over makes no transition. -/
theorem Transition.not_over {e : Deeds} (h : s.Transition now stopping e s') (r : Result) :
    s.activity ≠ .over r := by
  cases h with
  | begins he _ => simp [he]
  | answers hl _ _ | ignores hl _ _ _ | halfCloses hl _ _ _ => simp [hl.selecting]
  | defers ha _ _ _ => simp [ha.selecting]
  | deliversFirst hd _ _ | deliversSecond hd _ _ => simp [hd.delivering]
  | ends he _ => exact he.not_over r

/-- The contexts read come off the front of the requests, and nothing else is
done to them unless the session leaves. -/
theorem Transition.requests {e : Deeds} (h : s.Transition now stopping e s') :
    ∃ queue, s.stream.requests.queue = e.reads.map .context ++ queue ∧
      (s'.stream.requests = { s.stream.requests with queue } ∨
        (∃ r, s'.activity = .over r) ∧ s'.stream.requests.receiverGone = true) := by
  cases h with
  | answers _ hq _ | ignores _ hq _ _ => exact ⟨_, hq, .inl rfl⟩
  | ends he hl =>
    have hend : (∃ r, s'.activity = .over r) ∧ s'.stream.requests.receiverGone = true :=
      ⟨⟨_, hl.activity⟩, hl.requests⟩
    cases he with
    | rejects _ hq _ _ => exact ⟨_, hq, .inr hend⟩
    | _ => exact ⟨_, rfl, .inr hend⟩
  | _ => exact ⟨_, rfl, .inl rfl⟩

/-- A session keeps its configuration and its ranker. -/
theorem Transition.config_ranker {e : Deeds} (h : s.Transition now stopping e s') :
    s'.config = s.config ∧ s'.ranker = s.ranker := by
  cases h with
  | ends _ hl => exact ⟨hl.config, hl.ranker⟩
  | _ => exact ⟨rfl, rfl⟩

/-- What is queued only grows at its end, by what the transition puts there, and
only a session that leaves lets go of the channel. -/
theorem Transition.replies {e : Deeds} (h : s.Transition now stopping e s') :
    s'.stream.replies =
      { s.stream.replies with
        queue := s.stream.replies.queue ++ e.puts
        senderGone := s'.stream.replies.senderGone } := by
  cases h with
  | deliversFirst _ _ _ | deliversSecond _ _ _ => rfl
  | ends _ hl => rw [hl.replies]
  | _ => simp [Deeds.none]

end Step

/-! ## Signals and contexts -/

/-- What there is to a signal, for a session that selects. -/
inductive Notices (now : Instant) (stopping : Bool) (s : Session) : Signal → Prop
  | stopping (hs : stopping = true) : Notices now stopping s .stopping
  | receiverGone (hr : s.stream.replies.receiverGone = true) : Notices now stopping s .receiverGone
  | finalDue {deadline : Instant} (hp : s.phase = .awaitingFinal deadline) (hd : deadline ≤ now) :
      Notices now stopping s .finalDue
  | idleDue (hp : s.phase.awaitsContext = true) (hd : s.idleDeadline ≤ now) :
      Notices now stopping s .idleDue
  | arrived {a : Arrival} {rest : List Arrival} (hl : s.Listens now stopping)
      (hq : s.stream.requests.queue = a :: rest) : Notices now stopping s (.arrived a)
  | halfClosed (hl : s.Listens now stopping) (hq : s.stream.requests.queue = [])
      (hg : s.stream.requests.senderGone = true) : Notices now stopping s .halfClosed

/-- The session has counted a context and told of its arrival. -/
def countContext (s : Session) (now : Instant) (c : Context) : Session :=
  { s with tally := { s.tally with requestsSeen := Word.next32 s.tally.requestsSeen } }.record
    (.received (Word.next32 s.tally.requestsSeen) c (s.elapsed now))

section Contexts
variable {now : Instant} {s : Session} {c : Context}

theorem onContext_awaited (hp : s.phase.awaitsContext = true) :
    s.onContext now c = (s.countContext now c).startDelivery now c :=
  if_pos hp

theorem onContext_unawaited (hp : s.phase.awaitsContext = false) :
    s.onContext now c = (s.countContext now c).excess :=
  if_neg (hp ▸ Bool.false_ne_true)

theorem notices_of_timer {stopping : Bool} {g : Signal} (h : s.timer? now = some g) :
    s.Notices now stopping g := by
  unfold timer? at h
  split at h
  · rename_i hp
    split at h
    · rename_i hd
      obtain rfl := Option.some.inj h
      exact .finalDue hp hd
    · cases h
  · rename_i hp
    split at h
    · rename_i hd
      obtain rfl := Option.some.inj h
      exact .idleDue (by rw [hp]; rfl) hd
    · cases h
  · rename_i hp
    split at h
    · rename_i hd
      obtain rfl := Option.some.inj h
      exact .idleDue (by rw [hp]; rfl) hd
    · cases h
  · cases h

/-- A signal is what the session has noticed first. -/
theorem notices_of_signal {stopping : Bool} {g : Signal} (hs : s.activity = .selecting)
    (h : s.signal? now stopping = some g) : s.Notices now stopping g := by
  unfold signal? at h
  split at h
  · rename_i hstop
    obtain rfl := Option.some.inj h
    exact .stopping hstop
  · rename_i hstop
    split at h
    · rename_i hgone
      obtain rfl := Option.some.inj h
      exact .receiverGone hgone
    · rename_i hread
      rcases Option.or_eq_some_iff.mp h with ht | ⟨ht, harr⟩
      · exact notices_of_timer ht
      · unfold arrival? at harr
        split at harr
        · rename_i hopen
          have hl : s.Listens now stopping :=
            { selecting := hs, serving := by simpa using hstop, read := by simpa using hread,
              untimed := ht, isOpen := hopen }
          split at harr
          · rename_i hq
            obtain rfl := Option.some.inj harr
            exact .arrived hl hq
          · rename_i hq
            split at harr
            · rename_i hg
              obtain rfl := Option.some.inj harr
              exact .halfClosed hl hq hg
            · cases harr
        · cases harr

/-- A session that listens has not come to its final moment. -/
theorem Listens.lt_deadline {stopping : Bool} {deadline : Instant} (h : s.Listens now stopping)
    (hp : s.phase = .awaitingFinal deadline) : now < deadline := by
  have htimer := h.untimed
  rw [timer?, hp] at htimer
  refine Nat.lt_of_not_le fun hd => ?_
  exact absurd ((if_pos hd).symm.trans htimer) (by simp)

end Contexts

end ProgressiveSearch.Session
