import ProgressiveSearch.Proofs.Conversation.Course
import ProgressiveSearch.Proofs.Session.Ending

/-! # When time goes on

Time goes on only when nothing can be done (`Quiet`).  An undisturbed call comes to that
in two places only: both sides wait for the second context, or one waits for the
decision and the other for the final revision (`Timetable.Stalls`); or else both are
over.  So time goes on to the earlier of two deadlines, one of either side.
-/
namespace ProgressiveSearch

/-- A timer that has not gone off is ahead. -/
theorem Session.lt_of_pending {now deadline : Instant} {g : Signal}
    (h : (if deadline ≤ now then some g else none) = none) : now < deadline := by
  by_cases hle : deadline ≤ now
  · simp [hle] at h
  · exact Nat.lt_of_not_le hle

namespace Conversation

variable {x : Conversation} {config : Session.Config} {ranker : Ranker} {request : Request}
  {params : Exchange.Params}

/-- Nobody takes a step, and there is nothing to carry. -/
structure Quiet (x : Conversation) : Prop where
  serve : x.scene.session.step x.scene.now x.scene.stopping = none
  call : x.setting.exchange.call x.setting.now = none
  receive : x.setting.exchange.receive x.setting.now = none
  context : x.nextArrival = []
  reply : x.nextReply = []
  close : x.scene.session.stream.replies.isExhausted = true →
    x.setting.exchange.stream.replies.senderGone = true
  refuse : x.scene.session.stream.requests.receiverGone = true →
    x.setting.exchange.stream.requests.receiverGone = true
  desert : x.setting.exchange.stream.replies.receiverGone = true →
    x.scene.session.stream.replies.receiverGone = true

theorem quiet_of_ready (h : x.ready = []) : x.Quiet where
  serve := by simpa [possible] using not_possible h .serve (by decide)
  call := by simpa [possible] using not_possible h .call (by decide)
  receive := by simpa [possible] using not_possible h .receive (by decide)
  context := by simpa [possible] using not_possible h .carryContext (by decide)
  reply := by simpa [possible] using not_possible h .carryReply (by decide)
  close := by simpa [possible] using not_possible h .carryClose (by decide)
  refuse := by simpa [possible] using not_possible h .refuse (by decide)
  desert := by simpa [possible] using not_possible h .desert (by decide)

namespace Quiet

/-- All that was said has been picked up. -/
theorem requests (h : x.Quiet) (hs : x.Sound config ranker request params) (hw : x.Wired)
    (ho : ¬ x.Served) : x.setting.exchange.stream.requests.queue = [] ∧
      x.setting.picked = x.setting.contexts := by
  have hheld := hs.linked.fed.held (not_served_iff.mp ho)
  have hopen := hw.unrefused ho
  have hempty : x.setting.exchange.stream.requests.queue = [] := by
    have hnone := h.context
    unfold nextArrival at hnone
    cases hq : x.setting.exchange.stream.requests.queue with
    | nil => rfl
    | cons a rest => simp [hheld, hopen, hq] at hnone
  refine ⟨hempty, ?_⟩
  have hall := hs.orderly.handed.waiting hopen
  rwa [Channel.waiting, hempty, List.filterMap_nil, List.append_nil] at hall

/-- While there is someone to read them, no replies are left on their way. -/
theorem replies (h : x.Quiet) (hg : x.setting.exchange.stream.replies.receiverGone = false) :
    x.scene.session.stream.replies.queue = [] := by
  have hnone := h.reply
  unfold nextReply at hnone
  cases hq : x.scene.session.stream.replies.queue with
  | nil => rfl
  | cons r rest => simp [hg, hq] at hnone

/-- A receiver that goes on reading has heard all, and the session is not over. -/
theorem reading (h : x.Quiet) (hs : x.Sound config ranker request params) (hw : x.Wired)
    (hr : x.setting.exchange.receiver = .reading) :
    ¬ x.Served ∧ x.setting.replies = x.scene.history.written := by
  have hover : ∀ ending, x.setting.exchange.receiver ≠ .over ending := by simp [hr]
  have hpresent := hs.orderly.attentive.present hover
  have hempty := h.replies hpresent
  obtain ⟨-, hq, hopen⟩ := Exchange.Play.receive_eq_none h.receive hr
  constructor
  · rintro ⟨r, hserved⟩
    have hclosed := h.close (isExhausted_iff.mpr ⟨(hw.scene.left r hserved).1, hempty⟩)
    cases hopen.symm.trans hclosed
  · have hheard := hs.orderly.attentive.waiting hover
    have hall := hs.conserved
    unfold Session.Scene.Conserved at hall
    rw [hq, List.append_nil] at hheard
    rw [hempty, List.append_nil] at hall
    exact hheard.trans ((hs.linked.inStep hpresent hopen).trans hall)

/-- A session that is not over waits at its select, with its reader still there. -/
theorem idles (h : x.Quiet) (hs : x.Sound config ranker request params) (ho : ¬ x.Served)
    (hempty : x.scene.session.stream.replies.receiverGone = false →
      x.scene.session.stream.replies.queue = []) :
    x.scene.session.Idles x.scene.now x.scene.stopping := by
  rcases Session.waits_of_step_none h.serve (not_served_iff.mp ho) with hi | ⟨d, -, hread, hfull⟩
  · exact hi
  · -- there is room on replies that are empty
    have hroom := hs.room.2
    unfold Channel.hasRoom at hfull
    rw [hempty hread] at hfull
    have hle : ¬ 0 < x.scene.session.stream.replies.capacity := of_decide_eq_false hfull
    omega

/-- Such a session has read all that was said, if it awaits a context. -/
theorem read (h : x.Quiet) (hs : x.Sound config ranker request params) (hw : x.Wired)
    (hi : x.scene.session.Idles x.scene.now x.scene.stopping)
    (hp : x.scene.session.phase.awaitsContext = true) :
    x.scene.history.contexts = x.setting.contexts := by
  have ho : ¬ x.Served := by
    rintro ⟨r, hr⟩
    cases hi.selecting.symm.trans hr
  have hopen := hw.scene.listens hp
  have hnone := hi.unanswered
  unfold Session.arrival? at hnone
  rw [if_pos hopen] at hnone
  have hempty : x.scene.session.stream.requests.queue = [] := by
    cases hq : x.scene.session.stream.requests.queue with
    | nil => rfl
    | cons a rest => simp [hq] at hnone
  have hall := hw.carried ho
  rw [Channel.waiting, hempty, List.filterMap_nil, List.append_nil] at hall
  exact hall.trans (h.requests hs hw ho).2

end Quiet
end Conversation

namespace Timetable
open Conversation

variable {tt : Timetable} {ranker : Ranker} {request : Request} {x y : Conversation}

/-- **Where an undisturbed call comes to a stop.** -/
inductive Stalls (tt : Timetable) (x : Conversation) : Prop
  | pausing (hc : x.setting.exchange.stage = .pausing tt.second)
      (ha : x.scene.session.activity = .selecting)
      (hp : x.scene.session.phase = .awaitingSecond)
      (hsecond : x.setting.now < tt.second) (hidle : x.scene.now < tt.idle)
  | deciding (hc : x.setting.exchange.stage = .deciding tt.decision)
      (ha : x.scene.session.activity = .selecting)
      (hp : x.scene.session.phase = .awaitingFinal tt.final)
      (hdecision : x.setting.now < tt.decision) (hfinal : x.scene.now < tt.final)
      (hh : x.setting.replies.length = 2)
  | rests (hc : ∃ o, x.setting.exchange.stage = .over o) (hs : x.Served)

/-- While the caller waits for a moment, so does the session. -/
theorem Timed.stalls_waiting (hs : tt.Sound ranker request x) (hw : x.Wired) (h : tt.Timed x)
    (hq : x.Quiet) {deadline : Instant} (hwaiting : x.setting.exchange.stage = .pausing deadline ∨
      x.setting.exchange.stage = .deciding deadline) : tt.Stalls x := by
  have hcalls := h.calls
  have hserves := h.serves
  have hcoursed := hw.setting.coursed
  have hspoken := hs.orderly.spoken
  have hcall := hq.call
  have hread := hs.read
  unfold Calls at hcalls
  unfold Serves at hserves
  unfold Exchange.Coursed at hcoursed
  unfold Exchange.Setting.Spoken at hspoken
  unfold Exchange.call at hcall
  have hwake : x.setting.exchange.wake? x.setting.now deadline = none := by
    rcases hwaiting with hstage | hstage
    · simpa [hstage] using hcall
    · simpa [hstage] using hcall
  obtain ⟨-, hover, hearly⟩ := Exchange.Play.wake?_eq_none hwake
  have hpresent : x.setting.exchange.receiver ≠ .absent := by
    rcases hwaiting with hstage | hstage
    · simp only [hstage] at hcoursed
      exact hcoursed.2.2
    · simp only [hstage] at hcoursed
      exact hcoursed.2
  have hreading : x.setting.exchange.receiver = .reading := by
    cases hr : x.setting.exchange.receiver with
    | absent => exact absurd hr hpresent
    | reading => rfl
    | «over» ending => exact absurd hr (hover ending)
  obtain ⟨ho, hheard⟩ := hq.reading hs hw hreading
  have hi := hq.idles hs ho fun _ => hq.replies (hs.orderly.attentive.present hover)
  have htimer := hi.untimed
  unfold Session.timer? at htimer
  cases hp : x.scene.session.phase.awaitsContext with
  | true =>
    -- it has read what was said, which is one context
    have hall := hq.read hs hw hi hp
    rcases hwaiting with hstage | hstage
    · simp only [hstage] at hcalls hspoken
      obtain ⟨rfl, -⟩ := hcalls
      rcases Session.told_awaits hs.told hi.selecting hp with ⟨-, hlen, -⟩ | ⟨hphase, -, -⟩
      · simp [hall, hspoken] at hlen
      · simp only [hphase, hi.selecting] at hserves htimer
        rw [hserves.1] at htimer
        exact .pausing hstage hi.selecting hphase hearly (Session.lt_of_pending htimer)
    · simp only [hstage] at hspoken
      rcases Session.told_awaits hs.told hi.selecting hp with ⟨-, hlen, -⟩ | ⟨-, hlen, -⟩
      · simp [hall, hspoken] at hlen
      · simp [hall, hspoken] at hlen
  | false =>
    have htwo := Session.told_two hs.told hi.selecting hp
    obtain ⟨_, _, _, _, _, his, -, hphase⟩ := Session.told_final hs.told hi.selecting hp
    rcases hwaiting with hstage | hstage
    · simp only [hstage] at hspoken
      simp only [hspoken, List.length_singleton] at hread
      omega
    · simp only [hstage] at hcalls
      obtain ⟨rfl, -⟩ := hcalls
      simp only [hphase, hi.selecting] at hserves htimer
      obtain ⟨-, hdeadline, -⟩ := hserves
      rw [hdeadline] at hphase htimer
      refine .deciding hstage hi.selecting hphase hearly (Session.lt_of_pending htimer) ?_
      rw [hheard, his.written]
      rfl

theorem Timed.stalls (hs : tt.Sound ranker request x) (hw : x.Wired) (h : tt.Timed x)
    (hq : x.Quiet) : tt.Stalls x := by
  have hcalls := h.calls
  have hcoursed := hw.setting.coursed
  have hcall := hq.call
  have hoffers : x.setting.exchange.stage = .offeringFirst ∨
      x.setting.exchange.stage = .offeringSecond →
      ∀ c, x.setting.exchange.offer? c ≠ none := by
    intro hstage
    refine Exchange.Play.offer?_ne_none ?_
    obtain ⟨hempty, -⟩ := hq.requests hs hw (h.not_served_offering hs hw hstage)
    have hroom := hs.room.1
    unfold Channel.hasRoom
    rw [hempty]
    exact decide_eq_true hroom
  unfold Calls at hcalls
  unfold Exchange.Coursed at hcoursed
  unfold Exchange.call at hcall
  cases hstage : x.setting.exchange.stage with
  | starting | resuming => simp [hstage] at hcall
  | offeringFirst =>
    simp only [hstage] at hcall
    exact absurd (Option.map_eq_none_iff.mp hcall) (hoffers (.inl hstage) _)
  | pausing deadline => exact h.stalls_waiting hs hw hq (.inl hstage)
  | offeringSecond =>
    simp only [hstage] at hcall
    exact absurd (Option.map_eq_none_iff.mp hcall) (hoffers (.inr hstage) _)
  | deciding deadline => exact h.stalls_waiting hs hw hq (.inr hstage)
  | releasing termination =>
    simp only [hstage] at hcall hcoursed
    cases hr : x.setting.exchange.receiver with
    | absent => exact absurd hr hcoursed.2
    | reading =>
      -- a receiver that is told to stop does so
      cases hcoursed.1.symm.trans (Exchange.Play.receive_eq_none hq.receive hr).1
    | «over» ending => simp [hr] at hcall
  | «over» o =>
    refine .rests ⟨o, hstage⟩ (Classical.not_not.mp fun ho => ?_)
    -- the receiver has let go of the replies, of which the session has heard
    obtain ⟨⟨ending, hr⟩, -⟩ := hs.orderly.concluded o hstage
    have hgone := hq.desert (hw.setting.deaf ending hr)
    have hi := hq.idles hs ho fun hread => by cases hgone.symm.trans hread
    cases hgone.symm.trans hi.read
  | brokenDown => simp [hstage] at hcalls

/-! ## Time goes on -/

/-- Of two deadlines that the clock shows the earlier comes next. -/
theorem wakesAt_of_deadlines {clock : Clock} {t u : Instant} (hclocks : x.setting.now = x.scene.now)
    (ht : x.scene.session.wakesAt = some t) (hu : x.setting.exchange.wakesAt = some u)
    (hshown : clock.Shows t ∧ clock.Shows u) (hlt : x.scene.now < t) (hlu : x.setting.now < u) :
    x.wakesAt clock = some (if t ≤ u then t else u) := by
  have hwakest : clock.wakes x.scene.now t = t := (Clock.wakes_of_lt hlt).trans hshown.1
  have hwakesu : clock.wakes x.setting.now u = u := (Clock.wakes_of_lt hlu).trans hshown.2
  rw [hclocks] at hwakesu
  simp [wakesAt, ht, hu, hclocks, hwakest, hwakesu]

/-- The next moment after a stop. -/
inductive Resumes (tt : Timetable) (x : Conversation) (t : Instant) : Prop
  | pausing (hc : x.setting.exchange.stage = .pausing tt.second)
      (ha : x.scene.session.activity = .selecting)
      (hp : x.scene.session.phase = .awaitingSecond)
      (hsecond : t ≤ tt.second) (hidle : t ≤ tt.idle) (hdue : t = tt.second ∨ t = tt.idle)
  | deciding (hc : x.setting.exchange.stage = .deciding tt.decision)
      (ha : x.scene.session.activity = .selecting)
      (hp : x.scene.session.phase = .awaitingFinal tt.final)
      (hdecision : t ≤ tt.decision) (hfinal : t ≤ tt.final)
      (hdue : t = tt.decision ∨ t = tt.final) (hh : x.setting.replies.length = 2)

theorem earlier_le (t u : Instant) : (if t ≤ u then t else u) ≤ u ∧ (if t ≤ u then t else u) ≤ t ∧
    ((if t ≤ u then t else u) = u ∨ (if t ≤ u then t else u) = t) := by
  by_cases h : t ≤ u
  · rw [if_pos h]
    exact ⟨h, Nat.le_refl _, .inr rfl⟩
  · rw [if_neg h]
    exact ⟨Nat.le_refl _, Nat.le_of_not_le h, .inl rfl⟩

/-- **Time goes on to a deadline**, and passes over none. -/
theorem Stalls.resumes (h : tt.Timed x) (hw : x.Wired) (hstalls : tt.Stalls x) {t : Instant}
    (ht : x.wakesAt tt.clock = some t) : x.scene.now ≤ t ∧ tt.Resumes x t := by
  have hserves := h.serves
  unfold Serves at hserves
  cases hstalls with
  | pausing hc ha hp hsecond hidle =>
    simp only [hp, ha] at hserves
    have hsession : x.scene.session.wakesAt = some tt.idle := by
      simp [Session.wakesAt, ha, hp, hserves.1]
    have hexchange : x.setting.exchange.wakesAt = some tt.second := by
      simp [Exchange.wakesAt, hc]
    rw [wakesAt_of_deadlines hw.clocks hsession hexchange ⟨tt.shown.2.1, tt.shown.1⟩ hidle
      hsecond] at ht
    obtain rfl := Option.some.inj ht
    obtain ⟨hlesecond, hleidle, hdue⟩ := earlier_le tt.idle tt.second
    refine ⟨?_, .pausing hc ha hp hlesecond hleidle hdue⟩
    rcases hdue with hdue | hdue
    · rw [hdue, ← hw.clocks]
      exact Nat.le_of_lt hsecond
    · rw [hdue]
      exact Nat.le_of_lt hidle
  | deciding hc ha hp hdecision hfinal hh =>
    have hsession : x.scene.session.wakesAt = some tt.final := by
      simp [Session.wakesAt, ha, hp]
    have hexchange : x.setting.exchange.wakesAt = some tt.decision := by
      simp [Exchange.wakesAt, hc]
    rw [wakesAt_of_deadlines hw.clocks hsession hexchange ⟨tt.shown.2.2.2, tt.shown.2.2.1⟩ hfinal
      hdecision] at ht
    obtain rfl := Option.some.inj ht
    obtain ⟨hledecision, hlefinal, hdue⟩ := earlier_le tt.final tt.decision
    refine ⟨?_, .deciding hc ha hp hledecision hlefinal hdue hh⟩
    rcases hdue with hdue | hdue
    · rw [hdue, ← hw.clocks]
      exact Nat.le_of_lt hdecision
    · rw [hdue]
      exact Nat.le_of_lt hfinal
  | rests hc hs =>
    obtain ⟨o, hc⟩ := hc
    obtain ⟨r, hr⟩ := hs
    simp [wakesAt, Session.wakesAt, Exchange.wakesAt, hc, hr] at ht

/-- Both clocks go on alike. -/
theorem now_pass {t : Instant} (hclocks : x.setting.now = x.scene.now) (hle : x.scene.now ≤ t) :
    (x.act (.pass (x.scene.now.elapsed t))).scene.now = t ∧
      (x.act (.pass (x.scene.now.elapsed t))).setting.now = t := by
  refine ⟨Instant.plus_elapsed hle, ?_⟩
  show x.setting.now.plus _ = t
  rw [hclocks]
  exact Instant.plus_elapsed hle

theorem timed_waits (h : tt.Timed x) (hw : x.Wired) {t : Instant} (hle : x.scene.now ≤ t)
    (hr : tt.Resumes x t) : tt.Timed (x.act (.pass (x.scene.now.elapsed t))) := by
  obtain ⟨hnow, hnow'⟩ := now_pass hw.clocks hle
  have hcalls := h.calls
  have hserves := h.serves
  have hhears := h.hears
  unfold Calls at hcalls
  unfold Serves at hserves
  refine ⟨?_, ?_, ?_, h.batches⟩
  · unfold Calls
    rw [hnow']
    cases hr with
    | pausing hc _ _ hsecond hidle _ =>
      simp only [hc] at hcalls
      simp only [act, settingMoves, Exchange.Setting.run, List.foldl, Exchange.Setting.act, hc]
      exact ⟨trivial, hsecond, hidle, hcalls.2.2.2⟩
    | deciding hc _ _ hdecision hfinal _ hh =>
      simp only [hc] at hcalls
      obtain ⟨-, ha⟩ := hcalls
      simp only [act, settingMoves, Exchange.Setting.run, List.foldl, Exchange.Setting.act, hc]
      refine ⟨trivial, ha.early, ha.startedAt, Nat.le_trans ha.since ?_, hdecision, hfinal,
        fun _ => Nat.le_of_eq hh.symm⟩
      rw [hw.clocks]
      exact hle
  · unfold Serves
    rw [hnow]
    cases hr with
    | pausing _ ha hp hsecond hidle _ =>
      simp only [hp, ha] at hserves
      simp only [act, sceneMoves, Session.Scene.run, List.foldl, Session.Scene.act, hp, ha]
      exact ⟨hserves.1, hsecond, hidle⟩
    | deciding _ ha hp hdecision hfinal _ _ =>
      simp only [hp, ha] at hserves
      simp only [act, sceneMoves, Session.Scene.run, List.foldl, Session.Scene.act, hp, ha]
      exact ⟨hserves.1, trivial, hdecision, hfinal⟩
  · exact hhears

/-- **Both sides keep to the timetable**, whatever happens next. -/
theorem timed_advance (hs : tt.Sound ranker request x) (hs' : tt.Sound ranker request y)
    (hw : x.Wired) (h : tt.Timed x) (ha : x.Advance tt.clock y) : tt.Timed y := by
  cases ha with
  | serves ht => exact timed_serves hs hw h hs' ht
  | calls ht => exact timed_calls hs hw h ht
  | receives hh => exact timed_receives hs hw h hh
  | @carriesContext a _ _ _ _ => exact timed_take_setting (timed_take_scene h (.send a)) .pick
  | @carriesReply r _ _ _ => exact timed_take_setting (timed_take_scene h .read) (.bring r)
  | carriesHalfClose _ _ | deserts _ _ => exact timed_take_scene h _
  | carriesClose _ _ | refuses _ _ => exact timed_take_setting h _
  | waits hr hn =>
    obtain ⟨hle, hresumes⟩ := (h.stalls hs hw (quiet_of_ready hr)).resumes h hw hn
    exact timed_waits h hw hle hresumes

/-- When time has gone on to a deadline, something can be done. -/
theorem ready_waits (hs : tt.Sound ranker request x) (hw : x.Wired) (h : tt.Timed x)
    (hr : x.ready = []) {t : Instant} (hn : x.wakesAt tt.clock = some t)
    (hs' : tt.Sound ranker request (x.act (.pass (x.scene.now.elapsed t)))) :
    (x.act (.pass (x.scene.now.elapsed t))).ready ≠ [] := by
  intro hquiet
  have ha : x.Advance tt.clock (x.act (.pass (x.scene.now.elapsed t))) := .waits hr hn
  have hstalls := (timed_advance hs hs' hw h ha).stalls hs' (wired_advance hs hw ha)
    (quiet_of_ready hquiet)
  obtain ⟨hle, hresumes⟩ := (h.stalls hs hw (quiet_of_ready hr)).resumes h hw hn
  obtain ⟨hnow, hnow'⟩ := now_pass hw.clocks hle
  have hstage : (x.act (.pass (x.scene.now.elapsed t))).setting.exchange.stage =
      x.setting.exchange.stage := rfl
  cases hstalls with
  | pausing hc _ _ hsecond hidle =>
    rw [hnow'] at hsecond
    rw [hnow] at hidle
    cases hresumes with
    | pausing _ _ _ _ _ hdue =>
      rcases hdue with rfl | rfl
      · exact Nat.lt_irrefl _ hsecond
      · exact Nat.lt_irrefl _ hidle
    | deciding hc' _ _ _ _ _ _ => cases hc'.symm.trans (hstage.symm.trans hc)
  | deciding hc _ _ hdecision hfinal _ =>
    rw [hnow'] at hdecision
    rw [hnow] at hfinal
    cases hresumes with
    | pausing hc' _ _ _ _ _ => cases hc'.symm.trans (hstage.symm.trans hc)
    | deciding _ _ _ _ _ hdue _ =>
      rcases hdue with rfl | rfl
      · exact Nat.lt_irrefl _ hdecision
      · exact Nat.lt_irrefl _ hfinal
  | rests hc _ =>
    obtain ⟨o, hc⟩ := hc
    cases hresumes with
    | pausing hc' _ _ _ _ _ => cases hc'.symm.trans (hstage.symm.trans hc)
    | deciding hc' _ _ _ _ _ _ => cases hc'.symm.trans (hstage.symm.trans hc)

end Timetable
end ProgressiveSearch
