import ProgressiveSearch.Proofs.Session.Scene

/-! # What a session need not have heard

A lenient session that has read two contexts passes over whatever else comes on
its requests.  Two sessions are `Alike` if they differ in nothing else: in what
waits behind the last context that they still need, in the half-close behind it,
in what they have counted of contexts, and in their journals.

What a session passes over leaves it alike to what it was (`alike_passesOver`), and
whatever else one of two alike sessions does the other one does as well
(`step_alike`).  Alike sessions are the same when all this is left out
(`Alike.muted_eq`).
-/
namespace ProgressiveSearch

/-- A channel of which no more than the next `n` values are looked at: if they are
there it matters neither what follows them nor whether the sender is gone. -/
def Channel.trimmed {α : Type} (n : Nat) (c : Channel α) : Channel α :=
  { c with
    queue := c.queue.take n
    senderGone := c.senderGone && decide (c.queue.length < n) }

theorem Channel.trimmed_of_le {α : Type} {n : Nat} {c : Channel α} (h : n ≤ c.queue.length) :
    c.trimmed n = { c with queue := c.queue.take n, senderGone := false } := by
  simp [trimmed, Nat.not_lt.mpr h]

theorem Channel.trimmed_of_lt {α : Type} {n : Nat} {c : Channel α} (h : c.queue.length < n) :
    c.trimmed n = c := by
  simp [trimmed, h, List.take_of_length_le (Nat.le_of_lt h)]

/-- What is left of it when the first value is taken. -/
theorem Channel.trimmed_tail {α : Type} {c : Channel α} {a : α} {rest : List α} (n : Nat)
    (h : c.queue = a :: rest) :
    ({ c with queue := c.queue.tail }).trimmed n =
      { c.trimmed (n + 1) with queue := (c.trimmed (n + 1)).queue.tail } := by
  simp [Channel.trimmed, h]

theorem Channel.trimmed_trimmed {α : Type} (n : Nat) (c : Channel α) :
    (c.trimmed n).trimmed n = c.trimmed n := by
  have hlen : decide ((c.queue.take n).length < n) = decide (c.queue.length < n) := by
    rw [List.length_take]
    exact decide_eq_decide.mpr (by omega)
  unfold trimmed
  dsimp only
  rw [hlen, List.take_take, Nat.min_self, Bool.and_assoc, Bool.and_self]

namespace Session

/-- The book without the contexts. -/
def Tally.muted (t : Tally) : Tally := { t with requestsSeen := 0, extraRequests := 0 }

/-- The result, with the contexts left out of its report. -/
def Result.muted : Result → Result
  | .reported report => .reported { report with tally := report.tally.muted }
  | .failed failure => .failed failure
  | .brokenDown => .brokenDown

def Activity.muted : Activity → Activity
  | .over result => .over result.muted
  | .entering => .entering
  | .selecting => .selecting
  | .delivering d => .delivering d

/-- How many contexts are due in a phase. -/
def Phase.contextsDue : Phase → Nat
  | .awaitingFirst => 2
  | .awaitingSecond => 1
  | .awaitingFinal _ | .closed => 0

/-- One if a context is being answered. -/
def Activity.underway : Activity → Nat
  | .delivering _ => 1
  | .entering | .selecting | .over _ => 0

/-- How many contexts the session has yet to read before it awaits none. -/
def needs (s : Session) : Nat := s.phase.contextsDue - s.activity.underway

/-- Two sessions differ only in what they need not have heard. -/
structure Alike (s t : Session) : Prop where
  config : s.config = t.config
  ranker : s.ranker = t.ranker
  tally : s.tally.muted = t.tally.muted
  phase : s.phase = t.phase
  lastContext : s.lastContext = t.lastContext
  idleDeadline : s.idleDeadline = t.idleDeadline
  activity : s.activity.muted = t.activity.muted
  replies : s.stream.replies = t.stream.replies
  requests : s.stream.requests.trimmed s.needs = t.stream.requests.trimmed t.needs
  requestsOpen : s.needs ≠ 0 → s.requestsOpen = t.requestsOpen

/-- The session has nothing to react to but what it need not have heard. -/
structure PassesOver (now : Instant) (stopping : Bool) (s : Session) : Prop where
  selecting : s.activity = .selecting
  unawaited : s.phase.awaitsContext = false
  signal : (∃ c, s.signal? now stopping = some (.arrived (.context c))) ∨
    s.signal? now stopping = some .halfClosed

/-- A session that puts up with any context. -/
structure Tolerates (s : Session) : Prop where
  lenient : s.config.strict = false
  contexts : ∀ a ∈ s.stream.requests.queue, ∃ c, a = .context c

/-! ## What alike sessions have in common -/

section Common
variable {now : Instant} {stopping : Bool} {s t : Session}

theorem needs_of_selecting (hs : s.activity = .selecting) :
    s.needs = 0 ↔ s.phase.awaitsContext = false := by
  unfold needs
  rw [hs]
  cases s.phase <;> simp [Phase.awaitsContext, Phase.contextsDue, Activity.underway]

theorem underway_muted (a : Activity) : a.muted.underway = a.underway := by
  cases a <;> rfl

theorem activity_eq_of_muted {a b : Activity} (h : a.muted = b.muted) (ho : ∀ r, a ≠ .over r) :
    b = a := by
  cases a with
  | «over» r => exact absurd rfl (ho r)
  | _ => cases b <;> simp_all [Activity.muted]

theorem needs_congr (hp : s.phase = t.phase) (ha : s.activity.muted = t.activity.muted) :
    s.needs = t.needs := by
  unfold needs
  rw [hp, ← underway_muted s.activity, ha, underway_muted]

theorem Alike.needs (h : s.Alike t) : s.needs = t.needs := needs_congr h.phase h.activity

theorem Alike.symm (h : s.Alike t) : t.Alike s where
  config := h.config.symm
  ranker := h.ranker.symm
  tally := h.tally.symm
  phase := h.phase.symm
  lastContext := h.lastContext.symm
  idleDeadline := h.idleDeadline.symm
  activity := h.activity.symm
  replies := h.replies.symm
  requests := h.requests.symm
  requestsOpen hn := (h.requestsOpen (h.needs ▸ hn)).symm

/-! ## Alike ends -/

theorem Alike.record (h : s.Alike t) (e e' : Event) : (s.record e).Alike (t.record e') :=
  { h with }

theorem Alike.sendStatus (h : s.Alike t) (status : Status) :
    (s.sendStatus status).Alike (t.sendStatus status) :=
  { h with replies := congrArg (·.offer (.failed status)) h.replies }

theorem Alike.leave (h : s.Alike t) {r r' : Result} (hr : r.muted = r'.muted) :
    (s.leave r).Alike (t.leave r') where
  config := h.config
  ranker := h.ranker
  tally := h.tally
  phase := rfl
  lastContext := h.lastContext
  idleDeadline := h.idleDeadline
  activity := congrArg Activity.over hr
  replies := congrArg Channel.dropSender h.replies
  requests := by
    have hcap : (s.stream.requests.trimmed s.needs).capacity =
        (t.stream.requests.trimmed t.needs).capacity := by rw [h.requests]
    simp only [Channel.trimmed] at hcap
    simp [Session.leave, Stream.leaveService, Channel.dropReceiver, Channel.trimmed,
      Session.needs, Phase.contextsDue, hcap]
  requestsOpen hn := absurd rfl hn

theorem Alike.fail (h : s.Alike t) (f : Failure) : (s.fail f).Alike (t.fail f) := by
  unfold Session.fail
  rw [h.phase]
  split
  · exact (h.record _ _).leave rfl
  · exact h.leave rfl

theorem Alike.finish (h : s.Alike t) (now : Instant) (ending : Ending) :
    (s.finish now ending).Alike (t.finish now ending) :=
  (h.record _ _).leave (congrArg (fun tally => Result.reported ⟨tally, ending⟩) h.tally)

/-! ## Alike ways on -/

/-- Alike sessions that do the same and need as much as before stay alike. -/
theorem Alike.turn (h : s.Alike t) {phase phase' : Phase} (hp : phase = phase')
    (activity : Activity) (hn : phase.contextsDue - activity.underway = s.needs) :
    ({ s with phase, activity }).Alike { t with phase := phase', activity } where
  config := h.config
  ranker := h.ranker
  tally := h.tally
  phase := hp
  lastContext := h.lastContext
  idleDeadline := h.idleDeadline
  activity := rfl
  replies := h.replies
  requests := by
    show s.stream.requests.trimmed (phase.contextsDue - activity.underway) =
      t.stream.requests.trimmed (phase'.contextsDue - activity.underway)
    rw [← hp, hn, h.requests, h.needs]
  requestsOpen hne := h.requestsOpen fun hz => hne (hn.trans hz)

theorem Alike.begin (h : s.Alike t) (hs : s.activity = .entering) (now : Instant) :
    (s.begin now).Alike (t.begin now) := by
  have hafter : now.after? s.config.idleTimeout = now.after? t.config.idleTimeout := by
    rw [h.config]
  have hn : s.phase.contextsDue - Activity.selecting.underway = s.needs := by
    rw [Session.needs, hs]
    rfl
  unfold Session.begin
  rw [hafter]
  split
  · exact h.leave rfl
  · exact { h.turn h.phase .selecting hn with idleDeadline := rfl }

theorem Alike.startDelivery (h : s.Alike t) (now : Instant) (c : Context)
    (hn : s.phase.contextsDue - 1 = s.needs) :
    (s.startDelivery now c).Alike (t.startDelivery now c) := by
  have hbatch : s.ranker c s.dueRevision = t.ranker c t.dueRevision := by
    rw [h.ranker, dueRevision, dueRevision, h.phase]
  unfold Session.startDelivery
  dsimp only
  rw [hbatch]
  exact { h.turn h.phase (.delivering _) hn with }

/-- What is delivered is counted. -/
theorem Alike.sent (h : s.Alike t) :
    ({ s with tally := { s.tally with batchesSent := Word.next32 s.tally.batchesSent } }).Alike
      { t with tally := { t.tally with batchesSent := Word.next32 t.tally.batchesSent } } :=
  { h with
    tally := congrArg
      (fun tally : Tally => { tally with batchesSent := Word.next32 tally.batchesSent }) h.tally }

theorem Alike.delivered (h : s.Alike t) {d : Delivery} (hs : s.activity = .delivering d)
    (now : Instant) : (s.delivered now d).Alike (t.delivered now d) := by
  have hn : s.needs = s.phase.contextsDue - 1 := by
    rw [Session.needs, hs]
    rfl
  unfold Session.delivered
  dsimp only
  rw [← h.phase]
  split
  · rename_i hp
    have hafter : d.receivedAt.after? s.config.idleTimeout =
        d.receivedAt.after? t.config.idleTimeout := by rw [h.config]
    rw [hafter]
    split
    · exact h.sent.leave rfl
    · have hkept : Phase.awaitingSecond.contextsDue - Activity.selecting.underway = s.needs := by
        rw [hn, hp]
        rfl
      exact { h.sent.turn rfl .selecting hkept with lastContext := rfl, idleDeadline := rfl }
  · rename_i hp
    have hafter : d.receivedAt.after? s.config.finalDelay =
        d.receivedAt.after? t.config.finalDelay := by rw [h.config]
    rw [hafter]
    split
    · exact h.sent.leave rfl
    · rename_i deadline _
      have hkept : (Phase.awaitingFinal deadline).contextsDue - Activity.selecting.underway =
          s.needs := by
        rw [hn, hp]
        rfl
      exact { h.sent.turn rfl .selecting hkept with lastContext := rfl }
  · exact h.sent.finish now .completed
  · exact h.sent.finish now .completed

theorem Alike.onFinal (h : s.Alike t) (hn : s.phase.contextsDue = 0) (now : Instant) :
    (s.onFinal now).Alike (t.onFinal now) := by
  have hdue : s.phase.contextsDue - 1 = s.needs := by
    rw [Session.needs, hn, Nat.zero_sub, Nat.zero_sub]
  unfold Session.onFinal
  rw [← h.lastContext]
  split
  · exact h.fail _
  · rename_i c _
    have hcleared : ({ s with lastContext := none }).Alike { t with lastContext := none } :=
      { h with lastContext := rfl }
    exact hcleared.startDelivery now c hdue

/-! ## Alike reactions -/

/-- What an awaiting session finds on its requests is not behind what it needs. -/
theorem arrival?_trimmed {n : Nat} : s.arrival? =
    if s.requestsOpen then
      match (s.stream.requests.trimmed (n + 1)).queue with
      | a :: _ => some (.arrived a)
      | [] => if (s.stream.requests.trimmed (n + 1)).senderGone then some .halfClosed else none
    else none := by
  unfold arrival?
  cases hq : s.stream.requests.queue with
  | nil => simp [Channel.trimmed, hq]
  | cons a rest => simp [Channel.trimmed, hq]

theorem Alike.arrival? (h : s.Alike t) (hn : s.needs ≠ 0) : s.arrival? = t.arrival? := by
  obtain ⟨n, hs⟩ := Nat.exists_eq_succ_of_ne_zero hn
  have hrequests := h.requests
  rw [← h.needs, hs] at hrequests
  rw [arrival?_trimmed (n := n), arrival?_trimmed (n := n), hrequests, h.requestsOpen hn]

theorem Alike.timer? (h : s.Alike t) (now : Instant) : s.timer? now = t.timer? now := by
  rw [Session.timer?, Session.timer?, h.phase, h.idleDeadline]

/-- Alike sessions that are answering alike contexts are alike. -/
theorem Alike.onContext (h : s.Alike t) (hs : s.activity = .selecting)
    (hp : s.phase.awaitsContext = true)
    {c : Context} {rest rest' : List Arrival} (hq : s.stream.requests.queue = .context c :: rest)
    (hq' : t.stream.requests.queue = .context c :: rest') (now : Instant) :
    (s.takeArrival.onContext now c).Alike (t.takeArrival.onContext now c) := by
  have hp' : t.phase.awaitsContext = true := h.phase ▸ hp
  obtain ⟨n, hdue⟩ : ∃ n, s.phase.contextsDue = n + 1 := by
    cases hphase : s.phase <;> simp [hphase, Phase.awaitsContext, Phase.contextsDue] at hp ⊢
  have hbatch : s.ranker c s.dueRevision = t.ranker c t.dueRevision := by
    rw [h.ranker, dueRevision, dueRevision, h.phase]
  have hrequests := h.requests
  rw [← h.needs, Session.needs, hs, hdue] at hrequests
  rw [onContext_awaited (s := s.takeArrival) hp, onContext_awaited (s := t.takeArrival) hp']
  exact
    { config := h.config
      ranker := h.ranker
      tally := h.tally
      phase := h.phase
      lastContext := h.lastContext
      idleDeadline := h.idleDeadline
      activity := congrArg (fun b => Activity.delivering ⟨b, c, now⟩) hbatch
      replies := h.replies
      requests := by
        show ({ s.stream.requests with queue := s.stream.requests.queue.tail }).trimmed
            (s.phase.contextsDue - 1) =
          ({ t.stream.requests with queue := t.stream.requests.queue.tail }).trimmed
            (t.phase.contextsDue - 1)
        rw [← h.phase, hdue, Nat.add_sub_cancel, Channel.trimmed_tail n hq,
          Channel.trimmed_tail n hq']
        exact congrArg (fun c : Channel Arrival => { c with queue := c.queue.tail }) hrequests
      requestsOpen := fun _ => h.requestsOpen (by rw [Session.needs, hs, hdue]; exact nofun) }

theorem Alike.onHalfClose (h : s.Alike t) (hp : s.phase.awaitsContext = true) (now : Instant) :
    (s.onHalfClose now).Alike (t.onHalfClose now) := by
  have hp' : t.phase.awaitsContext = true := h.phase ▸ hp
  have hclosed : ({ s with requestsOpen := false }).Alike { t with requestsOpen := false } :=
    { h with requestsOpen := fun _ => rfl }
  rw [show s.onHalfClose now = _ from if_pos hp, show t.onHalfClose now = _ from if_pos hp']
  exact (hclosed.record _ _).finish now .halfClosedEarly

/-! ## Alike steps -/

/-- A tolerant session that does not pass over anything and awaits nothing hears
nothing. -/
theorem arrival?_eq_none (ht : s.Tolerates) (hs : s.activity = .selecting)
    (hp : s.phase.awaitsContext = false) (hn : ¬ s.PassesOver now stopping)
    (hsignal : s.signal? now stopping = s.arrival?) : s.arrival? = none := by
  cases ha : s.arrival? with
  | none => rfl
  | some g =>
    rw [ha] at hsignal
    unfold Session.arrival? at ha
    split at ha
    · split at ha
      · rename_i a rest hq
        obtain ⟨c, rfl⟩ := ht.contexts a (by rw [hq]; exact List.mem_cons_self)
        exact absurd ⟨hs, hp, .inl ⟨c, hsignal.trans ha.symm⟩⟩ hn
      · split at ha
        · exact absurd ⟨hs, hp, .inr (hsignal.trans ha.symm)⟩ hn
        · cases ha
    · cases ha

theorem Alike.signal? (h : s.Alike t) (hs : s.activity = .selecting) (ht : t.activity = .selecting)
    (hst : s.Tolerates) (htt : t.Tolerates) (hsn : ¬ s.PassesOver now stopping)
    (htn : ¬ t.PassesOver now stopping) : s.signal? now stopping = t.signal? now stopping := by
  unfold Session.signal?
  rw [h.replies, h.timer? now]
  split
  · rfl
  · rename_i hstop
    split
    · rfl
    · rename_i hread
      cases htimer : t.timer? now with
      | some g => rfl
      | none =>
        rw [Option.none_or, Option.none_or]
        by_cases hn : s.needs = 0
        · -- what is on the requests of either is nothing, as it would be passed over
          have hsig : ∀ {u : Session}, u.stream.replies = t.stream.replies →
              u.timer? now = t.timer? now → u.signal? now stopping = u.arrival? := by
            intro u hr hu
            rw [Session.signal?, if_neg hstop, hr, if_neg hread, hu, htimer, Option.none_or]
          have hp := (needs_of_selecting hs).mp hn
          have hp' := (needs_of_selecting ht).mp (h.needs ▸ hn)
          rw [arrival?_eq_none hst hs hp hsn (hsig h.replies (h.timer? now)),
            arrival?_eq_none htt ht hp' htn (hsig rfl rfl)]
        · exact h.arrival? hn

theorem Alike.react (h : s.Alike t) (hs : s.activity = .selecting) (ht : t.activity = .selecting)
    (hst : s.Tolerates) (hsn : ¬ s.PassesOver now stopping) {g : Signal}
    (hg : s.signal? now stopping = some g) (hg' : t.signal? now stopping = some g) :
    (s.react now g).Alike (t.react now g) := by
  cases g with
  | stopping => exact (h.sendStatus _).fail _
  | receiverGone => exact (h.record _ _).fail _
  | finalDue =>
    cases notices_of_signal hs hg with
    | finalDue hp _ => exact h.onFinal (by rw [hp]; rfl) now
  | idleDue => exact (h.record _ _).finish now .idleTimeout
  | halfClosed =>
    cases hp : s.phase.awaitsContext with
    | true => exact h.onHalfClose hp now
    | false => exact absurd ⟨hs, hp, .inr hg⟩ hsn
  | arrived a =>
    cases notices_of_signal hs hg with
    | arrived _ hq =>
      cases notices_of_signal ht hg' with
      | arrived _ hq' =>
        obtain ⟨c, rfl⟩ := hst.contexts a (by rw [hq]; exact List.mem_cons_self)
        cases hp : s.phase.awaitsContext with
        | true => exact h.onContext hs hp hq hq' now
        | false => exact absurd ⟨hs, hp, .inl ⟨c, hg⟩⟩ hsn

theorem Alike.deliver? (h : s.Alike t) {d : Delivery} (hs : s.activity = .delivering d)
    (now : Instant) : s.deliver? now d = none ∧ t.deliver? now d = none ∨
      ∃ s' t', s.deliver? now d = some s' ∧ t.deliver? now d = some t' ∧ s'.Alike t' := by
  unfold Session.deliver?
  rw [h.replies]
  split
  · exact .inr ⟨_, _, rfl, rfl, (h.record _ _).fail _⟩
  · split
    · have hqueued : ({ s with stream := { s.stream with
            replies := t.stream.replies.put (.batch d.batch) } }).Alike
          { t with stream := { t.stream with
            replies := t.stream.replies.put (.batch d.batch) } } :=
        { h with replies := rfl }
      exact .inr ⟨_, _, rfl, rfl, hqueued.delivered hs now⟩
    · exact .inl ⟨rfl, rfl⟩

/-- **Alike sessions take alike steps**, unless one of them passes something over. -/
theorem step_alike (h : s.Alike t) (hst : s.Tolerates) (htt : t.Tolerates)
    (hsn : ¬ s.PassesOver now stopping) (htn : ¬ t.PassesOver now stopping) :
    s.step now stopping = none ∧ t.step now stopping = none ∨
      ∃ s' t', s.step now stopping = some s' ∧ t.step now stopping = some t' ∧ s'.Alike t' := by
  have hactivity := h.activity
  unfold step
  cases hs : s.activity with
  | «over» r =>
    cases ht : t.activity <;> simp [hs, ht, Activity.muted] at hactivity ⊢
  | entering =>
    rw [activity_eq_of_muted hactivity (by simp [hs]), hs]
    exact .inr ⟨_, _, rfl, rfl, h.begin hs now⟩
  | delivering d =>
    rw [activity_eq_of_muted hactivity (by simp [hs]), hs]
    exact h.deliver? hs now
  | selecting =>
    have ht : t.activity = .selecting := (activity_eq_of_muted hactivity (by simp [hs])).trans hs
    rw [ht]
    dsimp only
    have hsignal := h.signal? hs ht hst htt hsn htn
    cases hg : s.signal? now stopping with
    | none => exact .inl ⟨rfl, by rw [← hsignal, hg]; rfl⟩
    | some g =>
      have hg' := hsignal.symm.trans hg
      rw [hg']
      exact .inr ⟨_, _, rfl, rfl, h.react hs ht hst hsn hg hg'⟩

/-! ## Passing over -/

/-- How much there is on the requests to pass over. -/
def backlog (s : Session) : Nat := s.stream.requests.queue.length + s.requestsOpen.toNat

/-- As long as the session needs nothing from them, its requests may change. -/
theorem Alike.of_needs_zero (h : s.Alike t) (hn : s.needs = 0) (requests requests' : Channel Arrival)
    (hcap : requests.capacity = requests'.capacity)
    (hgone : requests.receiverGone = requests'.receiverGone) (o o' : Bool) :
    ({ s with stream := { s.stream with requests }, requestsOpen := o }).Alike
      { t with stream := { t.stream with requests := requests' }, requestsOpen := o' } :=
  { h with
    requests := by
      show requests.trimmed s.needs = requests'.trimmed t.needs
      rw [← h.needs, hn]
      simp [Channel.trimmed, hcap, hgone]
    requestsOpen := fun hne => absurd hn hne }

theorem Alike.refl (s : Session) : s.Alike s := by
  constructor <;> simp

/-- **What is passed over leaves the session as it was**, but for what it need not
have heard. -/
theorem alike_passesOver (h : s.PassesOver now stopping) (ht : s.Tolerates) :
    ∃ s', s.step now stopping = some s' ∧ s'.Alike s ∧ s'.backlog < s.backlog := by
  have hn : s.needs = 0 := (needs_of_selecting h.selecting).mpr h.unawaited
  have hstep : ∀ {g : Signal}, s.signal? now stopping = some g →
      s.step now stopping = some (s.react now g) := by
    intro g hg
    rw [step, h.selecting]
    dsimp only
    rw [hg]
    rfl
  rcases h.signal with ⟨c, hg⟩ | hg
  · cases notices_of_signal h.selecting hg with
    | arrived _ hq =>
      have hreact : s.react now (.arrived (.context c)) =
          ((s.takeArrival.countContext now c).countExtra).record
            (.ignored (Word.next32 s.tally.requestsSeen)) :=
        (onContext_unawaited (s := s.takeArrival) h.unawaited).trans
          (excess_of_lenient (s := s.takeArrival.countContext now c) ht.lenient)
      refine ⟨_, hstep hg, ?_, ?_⟩
      · rw [hreact]
        exact { (Alike.refl s).of_needs_zero hn s.takeArrival.stream.requests s.stream.requests
          rfl rfl s.requestsOpen s.requestsOpen with tally := rfl }
      · rw [hreact]
        show s.stream.requests.queue.tail.length + _ < s.stream.requests.queue.length + _
        rw [hq]
        exact Nat.add_lt_add_right (Nat.lt_succ_self _) _
  · cases notices_of_signal h.selecting hg with
    | halfClosed hl _ _ =>
      have hreact : s.react now .halfClosed = ({ s with requestsOpen := false }).record
          (.halfClosed s.tally.requestsSeen (s.elapsed now)) :=
        if_neg (by simp [record, h.unawaited])
      refine ⟨_, hstep hg, ?_, ?_⟩
      · rw [hreact]
        exact { (Alike.refl s).of_needs_zero hn s.stream.requests s.stream.requests rfl rfl false
          s.requestsOpen with }
      · rw [hreact, backlog, backlog, hl.isOpen]
        exact Nat.lt_succ_self _

/-! ## Alike deeds -/

theorem asked_muted (s s' : Session) : asked s s' =
    match s.activity.muted, s'.activity.muted with
    | .selecting, .delivering d => [(d.context, s'.dueRevision)]
    | _, _ => [] := by
  unfold asked
  cases s.activity <;> cases s'.activity <;> rfl

/-- Between alike states a session has asked and queued the same. -/
theorem Alike.deeds (h : s.Alike t) {s' t' : Session} (h' : s'.Alike t') :
    (deeds s s').asks = (deeds t t').asks ∧ (deeds s s').puts = (deeds t t').puts := by
  constructor
  · show asked s s' = asked t t'
    rw [asked_muted, asked_muted t t', h.activity, h'.activity, dueRevision, dueRevision, h'.phase]
  · show s'.stream.replies.queue.drop _ = t'.stream.replies.queue.drop _
    rw [h.replies, h'.replies]

/-! ## What is left -/

/-- The session without what it need not have heard. -/
def muted (s : Session) : Session :=
  { s with
    tally := s.tally.muted
    requestsOpen := decide (s.needs = 0) || s.requestsOpen
    activity := s.activity.muted
    stream := { s.stream with requests := s.stream.requests.trimmed s.needs }
    journal := [] }

theorem Activity.muted_muted (a : Activity) : a.muted.muted = a.muted := by
  cases a with
  | «over» r => cases r <;> rfl
  | _ => rfl

theorem needs_muted (s : Session) : s.muted.needs = s.needs :=
  needs_congr rfl s.activity.muted_muted

theorem alike_muted (s : Session) : s.muted.Alike s where
  config := rfl
  ranker := rfl
  tally := rfl
  phase := rfl
  lastContext := rfl
  idleDeadline := rfl
  activity := s.activity.muted_muted
  replies := rfl
  requests := by
    rw [needs_muted]
    exact Channel.trimmed_trimmed ..
  requestsOpen hn := by
    rw [needs_muted] at hn
    simp [muted, hn]

/-- **Sessions are alike if the same is left of them.** -/
theorem Alike.muted_eq (h : s.Alike t) : s.muted = t.muted := by
  have hopen : (decide (s.needs = 0) || s.requestsOpen) =
      (decide (t.needs = 0) || t.requestsOpen) := by
    rw [← h.needs]
    by_cases hn : s.needs = 0
    · simp [hn]
    · rw [h.requestsOpen hn]
  unfold muted
  dsimp only
  rw [hopen, h.config, h.ranker, h.tally, h.phase, h.lastContext, h.idleDeadline, h.activity,
    h.replies, h.requests]

theorem tolerates_muted (h : s.Tolerates) : s.muted.Tolerates where
  lenient := h.lenient
  contexts a ha := h.contexts a (List.mem_of_mem_take ha)

/-- There is nothing left to pass over. -/
theorem not_passesOver_muted : ¬ s.muted.PassesOver now stopping := by
  intro h
  have hn : s.needs = 0 := needs_muted s ▸ (needs_of_selecting h.selecting).mpr h.unawaited
  have hrequests : s.muted.stream.requests = s.stream.requests.trimmed 0 := by
    show s.stream.requests.trimmed s.needs = _
    rw [hn]
  rcases h.signal with ⟨c, hg⟩ | hg
  · cases notices_of_signal h.selecting hg with
    | arrived _ hq =>
      rw [hrequests] at hq
      cases hq
  · cases notices_of_signal h.selecting hg with
    | halfClosed _ _ hg =>
      rw [hrequests] at hg
      simp [Channel.trimmed] at hg

/-- **A session and what is left of it** take alike steps, unless the session
passes something over. -/
theorem step_muted (h : s.Tolerates) (hn : ¬ s.PassesOver now stopping) :
    s.muted.step now stopping = none ∧ s.step now stopping = none ∨
      ∃ u s', s.muted.step now stopping = some u ∧ s.step now stopping = some s' ∧ u.Alike s' :=
  step_alike (alike_muted s) (tolerates_muted h) h not_passesOver_muted hn

end Common
end Session
end ProgressiveSearch
