import ProgressiveSearch.Proofs.Conversation.Wired

/-! # The timetable of a call

An undisturbed call has four deadlines.  Two are counted from its start: the caller's
second context, and the session's patience with the caller (`second`, `idle`).  If
there is a second context, two more are counted from it: the caller's decision and the
session's final revision (`decision`, `final`).  Which of them is ever met is a matter
of their order alone.

`Timed` says where the two sides stand at every moment, told from the clock: for each
stage of the caller, each phase of the session and each end of the receiver, what must
have come before.
-/
namespace ProgressiveSearch

/-- What is not after a moment and not that moment is before it. -/
theorem Instant.lt_of_le_of_ne {t u : Instant} (h : t ≤ u) (hn : t ≠ u) : t < u := by
  rcases Nat.lt_or_eq_of_le h with hlt | heq
  · exact hlt
  · exact absurd (Instant.le_antisymm h (Nat.le_of_eq heq.symm)) hn

/-- **The deadlines of a call**, which the clock can name and shows.  No two sides have
the same deadline, and none is at hand at once. -/
structure Timetable where
  clock : Clock
  config : Session.Config
  params : Exchange.Params
  source : Random.Source
  start : Instant
  /-- When the second context is due. -/
  second : Instant
  /-- When the session loses patience. -/
  idle : Instant
  decision : Instant
  final : Instant
  secondAt : start.after? params.contextDelay = some second
  idleAt : start.after? config.idleTimeout = some idle
  decisionAt : second < idle →
    ((params.window.sample? source).map Prod.fst).bind second.after? = some decision
  finalAt : second < idle → second.after? config.finalDelay = some final
  shown : clock.Shows second ∧ clock.Shows idle ∧ clock.Shows decision ∧ clock.Shows final
  start_lt_idle : start < idle
  second_lt_decision : second < decision
  second_ne_idle : second ≠ idle
  decision_ne_final : second < idle → decision ≠ final

namespace Timetable

variable (tt : Timetable)

/-- How the caller comes to its end, with what it has heard and said by then. -/
inductive Concludes (now : Instant) (heard said : Nat) (receiver : Exchange.Receiver) :
    Exchange.Termination → Prop
  | decides (early : tt.second < tt.idle) (first : tt.decision < tt.final)
      (due : now = tt.decision) (hh : heard = 2) (hs : said = 2) :
      Concludes now heard said receiver .decisionTimeout
  | completes (early : tt.second < tt.idle) (first : tt.final < tt.decision)
      (due : now = tt.final) (hh : heard = 3) (hr : receiver = .over .completed) :
      Concludes now heard said receiver .serverClosed
  | idles (late : tt.idle < tt.second) (due : now = tt.idle) (hh : heard = 1) (hs : said = 1)
      (hr : receiver = .over .completed) : Concludes now heard said receiver .serverClosed

/-- How the session comes to its end. -/
inductive Ends (now : Instant) (h : Session.History) (receiver : Exchange.Receiver) :
    Session.Result → Prop
  | completes {tally : Session.Tally} (early : tt.second < tt.idle)
      (first : tt.final < tt.decision) (due : now = tt.final) (hw : h.written.length = 3)
      (hc : h.contexts.length = 2) : Ends now h receiver (.reported ⟨tally, .completed⟩)
  | idles {tally : Session.Tally} (late : tt.idle < tt.second) (due : now = tt.idle)
      (hw : h.written.length = 1) (hc : h.contexts.length = 1) :
      Ends now h receiver (.reported ⟨tally, .idleTimeout⟩)
  | deserted {failure : Failure} (hr : receiver = .over .stopped) (hw : h.written.length ≤ 2)
      (ha : ∀ c, (c, Contract.finalRevision) ∉ h.queries) : Ends now h receiver (.failed failure)

/-- The caller has begun at the start, and has drawn nothing yet. -/
structure Begun (startedAt : Instant) (source : Random.Source) : Prop where
  startedAt : startedAt = tt.start
  source : source = tt.source

/-- The caller waits for the decision. -/
structure Awaits (now startedAt : Instant) (heard : Nat) : Prop where
  early : tt.second < tt.idle
  startedAt : startedAt = tt.start
  since : tt.second ≤ now
  due : now ≤ tt.decision
  final : now ≤ tt.final
  heard : tt.second < now → 2 ≤ heard

/-- **Where the caller stands.** -/
def Calls (x : Exchange.Setting) : Prop :=
  match x.exchange.stage with
  | .starting => x.now = tt.start ∧ x.exchange.source = tt.source
  | .offeringFirst => x.now = tt.start ∧ tt.Begun x.exchange.startedAt x.exchange.source
  | .resuming => x.now = tt.start ∧ x.exchange.firstSent = some tt.start ∧
    tt.Begun x.exchange.startedAt x.exchange.source
  | .pausing deadline =>
    deadline = tt.second ∧ x.now ≤ tt.second ∧ x.now ≤ tt.idle ∧
      tt.Begun x.exchange.startedAt x.exchange.source
  | .offeringSecond => x.now = tt.second ∧ tt.second < tt.idle ∧
    tt.Begun x.exchange.startedAt x.exchange.source
  | .deciding deadline =>
    deadline = tt.decision ∧ tt.Awaits x.now x.exchange.startedAt x.replies.length
  | .releasing termination => x.exchange.startedAt = tt.start ∧
    tt.Concludes x.now x.replies.length x.contexts.length x.exchange.receiver termination
  | .over o => o.elapsed = tt.start.elapsed x.now ∧
    tt.Concludes x.now x.replies.length x.contexts.length x.exchange.receiver o.termination
  | .brokenDown => False

/-- **Where the session stands.** -/
def Serves (x : Session.Scene) (receiver : Exchange.Receiver) : Prop :=
  match x.session.phase, x.session.activity with
  | .awaitingFirst, .entering => x.now = tt.start
  | .awaitingFirst, .selecting => x.now = tt.start ∧ x.session.idleDeadline = tt.idle
  | .awaitingFirst, .delivering d => x.now = tt.start ∧ d.receivedAt = tt.start
  | .awaitingSecond, .selecting =>
    x.session.idleDeadline = tt.idle ∧ x.now ≤ tt.second ∧ x.now ≤ tt.idle
  | .awaitingSecond, .delivering d =>
    tt.second < tt.idle ∧ x.now = tt.second ∧ d.receivedAt = tt.second
  | .awaitingFinal deadline, .selecting =>
    tt.second < tt.idle ∧ deadline = tt.final ∧ x.now ≤ tt.decision ∧ x.now ≤ tt.final
  | .awaitingFinal _, .delivering _ =>
    tt.second < tt.idle ∧ x.now = tt.final ∧ tt.final < tt.decision
  | .closed, .over r => tt.Ends x.now x.history receiver r
  | _, _ => False

/-- **Where the receiver stands.**  It ends because the session has closed, having heard
all that there was to hear, or because it is told to stop. -/
def Hears (x : Conversation) : Prop :=
  match x.setting.exchange.receiver with
  | .absent | .reading => True
  | .over .completed => (∃ report, x.scene.session.activity = .over (.reported report)) ∧
    x.setting.replies = x.scene.history.written
  | .over .stopped =>
    tt.second < tt.idle ∧ tt.decision < tt.final ∧ x.setting.exchange.stopping = true
  | .over (.failed _) => False

/-- The two sides keep to the timetable. -/
structure Timed (x : Conversation) : Prop where
  calls : tt.Calls x.setting
  serves : tt.Serves x.scene x.setting.exchange.receiver
  hears : tt.Hears x
  /-- Nothing but batches is ever queued. -/
  batches : ∀ r ∈ x.scene.history.written, ∃ b, r = .batch b

/-- What holds of conversations of these parties, whatever their timetable. -/
def Sound (ranker : Ranker) (request : Request) (x : Conversation) : Prop :=
  x.Sound tt.config ranker request tt.params

end Timetable

/-! ## What was said and heard -/

namespace Session

/-- The final revision is asked for last. -/
theorem told_undeferred {s : Session} {h : History} (ht : Told s h)
    (ho : ∀ r, s.activity ≠ .over r)
    (hd : ∀ deadline d, s.phase = .awaitingFinal deadline → s.activity ≠ .delivering d) :
    (∀ c, (c, Contract.finalRevision) ∉ h.queries) ∧ h.written.length ≤ 2 := by
  unfold Told at ht
  split at ht
  · exact ⟨by simp [ht.asks], by simp [ht.written]⟩
  · exact ⟨by simp [ht.asks], by simp [ht.written]⟩
  · exact ⟨by simp [ht.1.asks, Contract.finalRevision], by simp [ht.1.written]⟩
  · obtain ⟨t, c, ht⟩ := ht
    exact ⟨by simp [ht.asks, Contract.finalRevision], by simp [ht.written]⟩
  · obtain ⟨⟨t, c, ht⟩, -⟩ := ht
    exact ⟨by simp [ht.asks, Contract.finalRevision], by simp [ht.written]⟩
  · obtain ⟨t, c, t', c', rest, ht, -⟩ := ht
    exact ⟨by simp [ht.asks, Contract.finalRevision], by simp [ht.written]⟩
  · rename_i deadline d hp ha
    exact absurd ha (hd deadline d hp)
  · rename_i r _ ha
    exact absurd ha (ho r)
  · exact ht.elim

/-- A session at its select has read as many contexts as its phase says. -/
theorem told_awaits {s : Session} {h : History} (ht : Told s h) (hs : s.activity = .selecting)
    (hp : s.phase.awaitsContext = true) :
    (s.phase = .awaitingFirst ∧ h.contexts.length = 0 ∧ h.written.length = 0) ∨
      s.phase = .awaitingSecond ∧ h.contexts.length = 1 ∧ h.written.length = 1 := by
  unfold Told at ht
  cases hphase : s.phase with
  | awaitingFirst =>
    simp only [hphase, hs] at ht
    exact .inl ⟨rfl, by simp [ht.contexts], by simp [ht.written]⟩
  | awaitingSecond =>
    simp only [hphase, hs] at ht
    obtain ⟨t, c, ht⟩ := ht
    exact .inr ⟨rfl, by simp [ht.contexts], by simp [ht.written]⟩
  | awaitingFinal _ | closed => simp [hphase, Phase.awaitsContext] at hp

theorem told_two {s : Session} {h : History} (ht : Told s h) (hs : s.activity = .selecting)
    (hp : s.phase.awaitsContext = false) : 2 ≤ h.contexts.length := by
  obtain ⟨t, c, t', c', rest, hi, -⟩ := told_final ht hs hp
  simp [hi.contexts]

end Session

namespace Conversation

section Glance
variable {x : Conversation} {config : Session.Config} {ranker : Ranker} {request : Request}
  {params : Exchange.Params}

/-- What the receiver has heard is the first of what was queued. -/
theorem Sound.heard (h : x.Sound config ranker request params) :
    x.setting.replies <+: x.scene.history.written := by
  have htaken : x.scene.taken <+: x.scene.history.written := ⟨_, h.conserved⟩
  exact h.orderly.attentive.heard.trans (h.linked.brought.trans htaken)

/-- What the session has read is the first of what was said, which are two contexts at
most. -/
theorem Sound.read (h : x.Sound config ranker request params) :
    x.scene.history.contexts.length ≤ x.setting.contexts.length ∧
      x.setting.contexts.length ≤ 2 :=
  ⟨(h.linked.fed.read.trans h.orderly.handed.picked).length_le, h.orderly.spoken.within.length_le⟩

end Glance
end Conversation

namespace Timetable
open Conversation

variable {tt : Timetable} {ranker : Ranker} {request : Request} {x : Conversation}

theorem start_le_second (tt : Timetable) : tt.start ≤ tt.second := Instant.le_after? tt.secondAt

theorem second_le_final (tt : Timetable) (h : tt.second < tt.idle) : tt.second ≤ tt.final :=
  Instant.le_after? (tt.finalAt h)

/-- A session that is over has come to one of its ends. -/
theorem Timed.ends (h : tt.Timed x) {r : Session.Result}
    (hr : x.scene.session.activity = .over r) :
    tt.Ends x.scene.now x.scene.history x.setting.exchange.receiver r := by
  have hserves := h.serves
  unfold Serves at hserves
  rw [hr] at hserves
  cases hp : x.scene.session.phase with
  | closed => simpa only [hp] using hserves
  | _ => simp [hp] at hserves

/-- A receiver that has heard all has heard what a session that is over had to say. -/
theorem Timed.of_completed (h : tt.Timed x) (hr : x.setting.exchange.receiver = .over .completed) :
    (∃ report, x.scene.session.activity = .over (.reported report)) ∧
      x.setting.replies = x.scene.history.written := by
  simpa only [Hears, hr] using h.hears

/-- A receiver that was told to stop was told so by the decision. -/
theorem Timed.of_stopped (h : tt.Timed x) (hr : x.setting.exchange.receiver = .over .stopped) :
    tt.second < tt.idle ∧ tt.decision < tt.final ∧ x.setting.exchange.stopping = true := by
  simpa only [Hears, hr] using h.hears

theorem Timed.not_failed (h : tt.Timed x) (code : Code) :
    x.setting.exchange.receiver ≠ .over (.failed code) := by
  intro hr
  simpa only [Hears, hr] using h.hears

/-- If the decision comes first, the final revision is never asked for. -/
theorem Timed.undeferred (hs : tt.Sound ranker request x) (h : tt.Timed x)
    (hearly : tt.second < tt.idle) (hfirst : tt.decision < tt.final) :
    (∀ c, (c, Contract.finalRevision) ∉ x.scene.history.queries) ∧
      x.scene.history.written.length ≤ 2 := by
  by_cases ho : x.Served
  · obtain ⟨r, hr⟩ := ho
    cases h.ends hr with
    | completes _ hlater _ _ _ => exact absurd hfirst (Nat.lt_asymm hlater)
    | idles hlate _ _ _ => exact absurd hearly (Nat.lt_asymm hlate)
    | deserted _ hw ha => exact ⟨ha, hw⟩
  · refine Session.told_undeferred hs.told (not_served_iff.mp ho) fun deadline d hp ha => ?_
    have hserves := h.serves
    unfold Serves at hserves
    simp only [hp, ha] at hserves
    exact Nat.lt_asymm hfirst hserves.2.2

/-- The second context is said on time, if at all. -/
theorem Timed.said (hs : tt.Sound ranker request x) (h : tt.Timed x)
    (hsaid : x.setting.contexts.length = 2) :
    tt.second < tt.idle ∧ tt.second ≤ x.setting.now := by
  have hcalls := h.calls
  have hspoken := hs.orderly.spoken
  have hconcludes : ∀ {termination}, tt.Concludes x.setting.now x.setting.replies.length
      x.setting.contexts.length x.setting.exchange.receiver termination →
      tt.second < tt.idle ∧ tt.second ≤ x.setting.now := by
    intro termination hc
    cases hc with
    | decides hearly _ hdue _ _ =>
      exact ⟨hearly, hdue ▸ Nat.le_of_lt tt.second_lt_decision⟩
    | completes hearly _ hdue _ _ => exact ⟨hearly, hdue ▸ tt.second_le_final hearly⟩
    | idles _ _ _ hone _ => omega
  unfold Calls at hcalls
  unfold Exchange.Setting.Spoken at hspoken
  cases hstage : x.setting.exchange.stage with
  | starting | offeringFirst =>
    simp only [hstage] at hspoken
    simp [hspoken.1] at hsaid
  | resuming =>
    simp only [hstage] at hspoken hcalls
    simp [hspoken.1, hcalls.2.1] at hsaid
  | pausing _ | offeringSecond =>
    simp only [hstage] at hspoken
    simp [hspoken] at hsaid
  | deciding _ =>
    simp only [hstage] at hcalls
    exact ⟨hcalls.2.early, hcalls.2.since⟩
  | releasing _ | «over» _ =>
    simp only [hstage] at hcalls
    exact hconcludes hcalls.2
  | brokenDown => simp [hstage] at hcalls

/-- A caller who has let go of the requests while the session is still there has said
both contexts. -/
theorem Timed.said_both (hs : tt.Sound ranker request x) (hw : x.Wired) (h : tt.Timed x)
    (ho : ¬ x.Served) (hg : x.setting.exchange.stream.requests.senderGone = true) :
    x.setting.contexts.length = 2 := by
  have hcalls := h.calls
  have hcoursed := hw.setting.coursed
  have hspoken := hs.orderly.spoken
  have hconcludes : ∀ {termination}, tt.Concludes x.setting.now x.setting.replies.length
      x.setting.contexts.length x.setting.exchange.receiver termination →
      x.setting.contexts.length = 2 := by
    intro termination hc
    cases hc with
    | decides _ _ _ _ hsaid => exact hsaid
    | completes _ _ _ _ hr | idles _ _ _ _ hr =>
      obtain ⟨⟨report, hover⟩, -⟩ := h.of_completed hr
      exact absurd ⟨_, hover⟩ ho
  unfold Calls at hcalls
  unfold Exchange.Coursed at hcoursed
  unfold Exchange.Setting.Spoken at hspoken
  cases hstage : x.setting.exchange.stage with
  | starting | offeringFirst | resuming | pausing _ | offeringSecond =>
    simp [hstage, hg] at hcoursed
  | deciding _ =>
    simp only [hstage] at hspoken
    simp [hspoken]
  | releasing _ | «over» _ =>
    simp only [hstage] at hcalls
    exact hconcludes hcalls.2
  | brokenDown => simp [hstage] at hcalls

end Timetable
end ProgressiveSearch
