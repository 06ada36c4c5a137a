import ProgressiveSearch.Proofs.Conversation.Rest

/-! # How an undisturbed call ends

An undisturbed call comes to rest, and both sides have kept to the timetable until
then: the order of its deadlines decides how it ends
(`Conversation.deadlines_decide`).
-/
namespace ProgressiveSearch
namespace Conversation

/-! ## What it may come to -/

/-- The caller is over, with this to report. -/
def Reports (x : Conversation) (revisions : List UInt32) (selected : Option Batch)
    (termination : Exchange.Termination) (elapsed : Duration) : Prop :=
  ∃ o, x.setting.exchange.outcome? = some o ∧ o.revisions = revisions ∧ o.selected = selected ∧
    o.termination = termination ∧ o.elapsed = elapsed

/-- The session is over and has lost patience. -/
def LosesPatience (x : Conversation) : Prop :=
  ∃ tally, x.scene.session.activity = .over (.reported ⟨tally, .idleTimeout⟩)

end Conversation

namespace Timetable
open Conversation

variable {tt : Timetable} {ranker : Ranker} {request : Request} {x : Conversation}

/-! ## What it comes to -/

/-- When a call is concluded, with how many revisions, and why. -/
def conclusion (tt : Timetable) : Instant × Nat × Exchange.Termination :=
  if tt.second < tt.idle then
    if tt.decision < tt.final then (tt.decision, 2, .decisionTimeout)
    else (tt.final, 3, .serverClosed)
  else (tt.idle, 1, .serverClosed)

/-- The order of the deadlines decides. -/
theorem Concludes.eq {now : Instant} {heard said : Nat} {receiver : Exchange.Receiver}
    {termination : Exchange.Termination} (h : tt.Concludes now heard said receiver termination) :
    tt.conclusion = (now, heard, termination) := by
  unfold conclusion
  cases h with
  | decides hearly hfirst hdue hh _ => rw [if_pos hearly, if_pos hfirst, hdue, hh]
  | completes hearly hfirst hdue hh _ =>
    have hnot : ¬ tt.decision < tt.final := Nat.lt_asymm hfirst
    rw [if_pos hearly, if_neg hnot, hdue, hh]
  | idles hlate hdue hh _ _ =>
    have hnot : ¬ tt.second < tt.idle := Nat.lt_asymm hlate
    rw [if_neg hnot, hdue, hh]

/-- **A caller that is over reports what the deadlines have decided.** -/
theorem Kept.reports (hlabel : ∀ c revision, (ranker c revision).revision = revision)
    (h : tt.Kept ranker request x)
    (hdue : x.setting.replies.filterMap Reply.batch? <+: due ranker request)
    (hover : ∃ o, x.setting.exchange.stage = .over o) :
    Reports x ([1, 2, 3].take tt.conclusion.2.1) (selection ranker request tt.conclusion.2.1)
      tt.conclusion.2.2 (tt.start.elapsed tt.conclusion.1) := by
  obtain ⟨o, hstage⟩ := hover
  have hcalls := h.timed.calls
  unfold Calls at hcalls
  simp only [hstage] at hcalls
  obtain ⟨helapsed, hconcludes⟩ := hcalls
  rw [hconcludes.eq]
  -- all that it has heard are batches
  have hlen : (x.setting.replies.filterMap Reply.batch?).length = x.setting.replies.length := by
    refine List.filterMap_length_eq_length.mpr fun reply hm => ?_
    obtain ⟨b, rfl⟩ := h.timed.batches reply (h.sound.heard.subset hm)
    rfl
  obtain ⟨-, hselected, hrevisions⟩ := h.sound.orderly.concluded o hstage
  rw [h.sound.orderly.attentive.stored] at hselected hrevisions
  obtain ⟨-, hfirst, hlatest⟩ := buffer_due hlabel hdue
  rw [hlen] at hfirst hlatest
  refine ⟨o, ?_, hrevisions.trans hfirst, hselected.trans hlatest, rfl, helapsed⟩
  unfold Exchange.outcome?
  rw [hstage]

theorem Kept.losesPatience (h : tt.Kept ranker request x) (hs : x.Served)
    (hlate : tt.idle < tt.second) : LosesPatience x := by
  obtain ⟨r, hr⟩ := hs
  cases h.timed.ends hr with
  | completes hearly _ _ _ _ => exact absurd hearly (Nat.lt_asymm hlate)
  | idles _ _ _ _ => exact ⟨_, hr⟩
  | deserted hstopped _ _ => exact absurd (h.timed.of_stopped hstopped).1 (Nat.lt_asymm hlate)

/-- A caller whose session loses patience says one context only. -/
theorem Kept.said_one (h : tt.Kept ranker request x) (hlate : tt.idle < tt.second) :
    x.setting.contexts <+: [request.firstContext] := by
  have hwithin := h.sound.orderly.spoken.within
  rw [h.sound.request] at hwithin
  have hle := h.sound.read.2
  have hne : x.setting.contexts.length ≠ 2 := fun htwo =>
    Nat.lt_asymm hlate (h.timed.said h.sound htwo).1
  refine List.prefix_of_prefix_length_le hwithin ⟨[request.secondContext], rfl⟩ ?_
  rw [List.length_singleton]
  omega

section Start
variable (tt) (request) (id : Nat) {requestCapacity replyCapacity : Nat}
  (hrequests : 1 ≤ requestCapacity) (hreplies : 1 ≤ replyCapacity) (choices : Nat → Nat)

/-- What has been heard are the first of the batches due. -/
theorem heard_after (n : Nat) :
    ((tt.ofStart ranker request id requestCapacity replyCapacity).after tt.clock choices
      n).setting.replies.filterMap Reply.batch? <+: due ranker request := by
  obtain ⟨moves, hrun⟩ := after_run (tt.ofStart ranker request id requestCapacity replyCapacity)
    tt.clock choices n
  rw [hrun]
  obtain ⟨hheard, hwritten⟩ := heard_batches tt.config ranker id request tt.params tt.source
    tt.start requestCapacity replyCapacity moves
  exact hheard.trans hwritten

include hrequests hreplies

/-- **The call settles on what its deadlines decide.** -/
theorem settles_conclusion (hlabel : ∀ c revision, (ranker c revision).revision = revision) :
    Settles (tt.ofStart ranker request id requestCapacity replyCapacity) tt.clock choices
      fun y => Reports y ([1, 2, 3].take tt.conclusion.2.1)
          (selection ranker request tt.conclusion.2.1) tt.conclusion.2.2
          (tt.start.elapsed tt.conclusion.1) ∧
        (tt.idle < tt.second → LosesPatience y) := by
  obtain ⟨n, hrest⟩ := comes_to_rest tt ranker request id hrequests hreplies choices
  have hkept := kept_after tt ranker request id hrequests hreplies choices n
  obtain ⟨hover, hserved⟩ := hkept.over_of_rest hrest
  exact settles_of_rest hrest ⟨hkept.reports hlabel (heard_after tt request id choices n) hover,
    hkept.losesPatience hserved⟩

section Cases
variable (hlabel : ∀ c revision, (ranker c revision).revision = revision)
include hlabel

/-- A decision that comes first is made of two revisions. -/
theorem settles_decision (hearly : tt.second < tt.idle) (hfirst : tt.decision < tt.final) :
    Settles (tt.ofStart ranker request id requestCapacity replyCapacity) tt.clock choices
      (Reports · [1, 2] (some (ranker request.secondContext 2)) .decisionTimeout
        (tt.start.elapsed tt.decision)) := by
  have hconclusion : tt.conclusion = (tt.decision, 2, .decisionTimeout) := by
    rw [conclusion, if_pos hearly, if_pos hfirst]
  obtain ⟨n, hsettles⟩ := settles_conclusion tt request id hrequests hreplies choices hlabel
  rw [hconclusion] at hsettles
  exact ⟨n, fun k hk => (hsettles k hk).1⟩

/-- A final revision that comes first is the third to be heard. -/
theorem settles_completion (hearly : tt.second < tt.idle) (hfirst : tt.final < tt.decision) :
    Settles (tt.ofStart ranker request id requestCapacity replyCapacity) tt.clock choices
      (Reports · [1, 2, 3] (some (ranker request.secondContext 3)) .serverClosed
        (tt.start.elapsed tt.final)) := by
  have hnot : ¬ tt.decision < tt.final := Nat.lt_asymm hfirst
  have hconclusion : tt.conclusion = (tt.final, 3, .serverClosed) := by
    rw [conclusion, if_pos hearly, if_neg hnot]
  obtain ⟨n, hsettles⟩ := settles_conclusion tt request id hrequests hreplies choices hlabel
  rw [hconclusion] at hsettles
  exact ⟨n, fun k hk => (hsettles k hk).1⟩

/-- A session that loses patience first has answered one context. -/
theorem settles_patience (hlate : tt.idle < tt.second) :
    Settles (tt.ofStart ranker request id requestCapacity replyCapacity) tt.clock choices
      fun y => LosesPatience y ∧
        Reports y [1] (some (ranker request.firstContext 1)) .serverClosed
          (tt.start.elapsed tt.idle) := by
  have hnot : ¬ tt.second < tt.idle := Nat.lt_asymm hlate
  have hconclusion : tt.conclusion = (tt.idle, 1, .serverClosed) := by
    rw [conclusion, if_neg hnot]
  obtain ⟨n, hsettles⟩ := settles_conclusion tt request id hrequests hreplies choices hlabel
  rw [hconclusion] at hsettles
  exact ⟨n, fun k hk => ⟨(hsettles k hk).2 hlate, (hsettles k hk).1⟩⟩

end Cases

/-- If the decision comes first, the session never comes to rank the final revision. -/
theorem unranked_after (hearly : tt.second < tt.idle) (hfirst : tt.decision < tt.final) (n : Nat) :
    Contract.finalRevision ∉ ((tt.ofStart ranker request id requestCapacity replyCapacity).after
      tt.clock choices n).scene.session.ranked := by
  have hkept := kept_after tt ranker request id hrequests hreplies choices n
  obtain ⟨hunasked, -⟩ := hkept.timed.undeferred hkept.sound hearly hfirst
  obtain ⟨moves, hrun⟩ := after_run (tt.ofStart ranker request id requestCapacity replyCapacity)
    tt.clock choices n
  obtain ⟨sceneMoves, hscene⟩ := run_scene moves
    (x := tt.ofStart ranker request id requestCapacity replyCapacity)
  rw [hrun, hscene] at hunasked ⊢
  rw [Session.Scene.ranked_run rfl sceneMoves]
  intro hm
  obtain ⟨⟨c, revision⟩, hquery, rfl⟩ := List.mem_map.mp hm
  exact hunasked c hquery

end Start

/-! ## In milliseconds -/

/-- The clock can name the deadlines of the call, those after the second context if
there is one. -/
structure Nameable (start : Instant) (contextDelay idleTimeout finalDelay timeout : Nat) :
    Prop where
  second : start.plus (.ofMillis contextDelay) < .horizon
  idle : start.plus (.ofMillis idleTimeout) < .horizon
  final : contextDelay < idleTimeout →
    start.plus (.ofMillis (contextDelay + finalDelay)) < .horizon
  decision : contextDelay < idleTimeout →
    start.plus (.ofMillis (contextDelay + timeout)) < .horizon

section Millis
variable {start : Instant} {m n : Nat}

theorem after_ofMillis (h : start.plus (.ofMillis n) < .horizon) :
    start.after? (.ofMillis n) = some (start.plus (.ofMillis n)) := if_pos h

theorem plus_ofMillis (start : Instant) (m n : Nat) :
    (start.plus (.ofMillis m)).plus (.ofMillis n) = start.plus (.ofMillis (m + n)) := by
  refine congrArg Instant.mk ?_
  simp only [Instant.nanos_plus, Duration.nanos_ofMillis]
  omega

theorem lt_ofMillis : start.plus (.ofMillis m) < start.plus (.ofMillis n) ↔ m < n := by
  simp only [Instant.lt_def, Instant.nanos_plus, Duration.nanos_ofMillis]
  omega

theorem ofMillis_ne (h : m ≠ n) : start.plus (.ofMillis m) ≠ start.plus (.ofMillis n) := by
  intro heq
  have hnanos := congrArg Instant.nanos heq
  simp only [Instant.nanos_plus, Duration.nanos_ofMillis] at hnanos
  omega

theorem shows_ofMillis (h : Clock.millis.Shows start) (n : Nat) :
    Clock.millis.Shows (start.plus (.ofMillis n)) := by
  obtain ⟨q, hq⟩ : ∃ q, start.nanos = q * 1000000 := ⟨_, (congrArg Instant.nanos h).symm⟩
  have hsum : (q * 1000000 + n * 1000000 + 999999) / 1000000 * 1000000 =
      q * 1000000 + n * 1000000 := by omega
  rw [← hq] at hsum
  exact congrArg Instant.mk hsum

/-- The timetable of a call whose delays are whole milliseconds. -/
def ofMillis (clock : Clock) (strict : Bool) (window : DecisionWindow) (source : Random.Source)
    (start : Instant) (contextDelay idleTimeout finalDelay timeout : Nat)
    (hclock : ∀ n, clock.Shows (start.plus (.ofMillis n)))
    (hdraw : (window.sample? source).map Prod.fst = some (.ofMillis timeout))
    (htimeout : 0 < timeout) (hidle : 0 < idleTimeout)
    (hnameable : Nameable start contextDelay idleTimeout finalDelay timeout)
    (hfirst : contextDelay ≠ idleTimeout)
    (hsecond : contextDelay < idleTimeout → timeout ≠ finalDelay) : Timetable where
  clock
  config := ⟨.ofMillis finalDelay, .ofMillis idleTimeout, strict⟩
  params := ⟨.ofMillis contextDelay, window⟩
  source
  start
  second := start.plus (.ofMillis contextDelay)
  idle := start.plus (.ofMillis idleTimeout)
  decision := start.plus (.ofMillis (contextDelay + timeout))
  final := start.plus (.ofMillis (contextDelay + finalDelay))
  secondAt := after_ofMillis hnameable.second
  idleAt := after_ofMillis hnameable.idle
  decisionAt h := by
    have hname := hnameable.decision (lt_ofMillis.mp h)
    rw [← plus_ofMillis] at hname ⊢
    rw [hdraw, Option.bind_some, after_ofMillis hname]
  finalAt h := by
    have hname := hnameable.final (lt_ofMillis.mp h)
    rw [← plus_ofMillis] at hname ⊢
    exact after_ofMillis hname
  shown := ⟨hclock _, hclock _, hclock _, hclock _⟩
  start_lt_idle := by
    simp only [Instant.lt_def, Instant.nanos_plus, Duration.nanos_ofMillis]
    omega
  second_lt_decision := lt_ofMillis.mpr (Nat.lt_add_of_pos_right htimeout)
  second_ne_idle := ofMillis_ne hfirst
  decision_ne_final h := ofMillis_ne fun heq =>
    hsecond (lt_ofMillis.mp h) (Nat.add_left_cancel heq)

end Millis
end Timetable

namespace Conversation
open Timetable

/-- **The order of the deadlines decides** what comes of an undisturbed call, whatever
the order in which its two sides do what they can do.  All delays are whole
milliseconds, and `timeout` is what the caller draws. -/
theorem deadlines_decide {ranker : Ranker}
    (hlabel : ∀ c revision, (ranker c revision).revision = revision) (id : Nat)
    (request : Request) (strict : Bool) {window : DecisionWindow} {source : Random.Source}
    {start : Instant} {requestCapacity replyCapacity : Nat} (hrequests : 1 ≤ requestCapacity)
    (hreplies : 1 ≤ replyCapacity) {contextDelay idleTimeout finalDelay timeout : Nat}
    {clock : Clock} (hclock : ∀ n, clock.Shows (start.plus (.ofMillis n)))
    (hdraw : (window.sample? source).map Prod.fst = some (.ofMillis timeout))
    (htimeout : 0 < timeout)
    (hidle : 0 < idleTimeout)
    (hnameable : Nameable start contextDelay idleTimeout finalDelay timeout)
    (choices : Nat → Nat) :
    let x := ofStart ⟨.ofMillis finalDelay, .ofMillis idleTimeout, strict⟩ ranker id request
      ⟨.ofMillis contextDelay, window⟩ source start requestCapacity replyCapacity
    (contextDelay < idleTimeout → timeout < finalDelay →
      Settles x clock choices (Reports · [1, 2] (some (ranker request.secondContext 2))
        .decisionTimeout (.ofMillis (contextDelay + timeout))) ∧
      ∀ n, 3 ∉ (x.after clock choices n).scene.session.ranked) ∧
    (contextDelay < idleTimeout → finalDelay < timeout →
      Settles x clock choices (Reports · [1, 2, 3] (some (ranker request.secondContext 3))
        .serverClosed (.ofMillis (contextDelay + finalDelay)))) ∧
    (idleTimeout < contextDelay →
      Settles x clock choices (fun y => LosesPatience y ∧
        Reports y [1] (some (ranker request.firstContext 1)) .serverClosed
          (.ofMillis idleTimeout)) ∧
      ∀ n, (x.after clock choices n).setting.contexts <+: [request.firstContext]) := by
  intro x
  refine ⟨fun hearly hfirst => ?_, fun hearly hlater => ?_, fun hlate => ?_⟩
  · let tt := Timetable.ofMillis clock strict window source start contextDelay idleTimeout
      finalDelay timeout hclock hdraw htimeout hidle hnameable (Nat.ne_of_lt hearly)
      fun _ => Nat.ne_of_lt hfirst
    have hsecond : tt.second < tt.idle := lt_ofMillis.mpr hearly
    have hdecision : tt.decision < tt.final := lt_ofMillis.mpr (Nat.add_lt_add_left hfirst _)
    have helapsed : tt.start.elapsed tt.decision = .ofMillis (contextDelay + timeout) :=
      Instant.elapsed_plus _ _
    rw [← helapsed]
    exact ⟨settles_decision tt request id hrequests hreplies choices hlabel hsecond hdecision,
      unranked_after tt request id hrequests hreplies choices hsecond hdecision⟩
  · let tt := Timetable.ofMillis clock strict window source start contextDelay idleTimeout
      finalDelay timeout hclock hdraw htimeout hidle hnameable (Nat.ne_of_lt hearly)
      fun _ => (Nat.ne_of_lt hlater).symm
    have hsecond : tt.second < tt.idle := lt_ofMillis.mpr hearly
    have hfinal : tt.final < tt.decision := lt_ofMillis.mpr (Nat.add_lt_add_left hlater _)
    have helapsed : tt.start.elapsed tt.final = .ofMillis (contextDelay + finalDelay) :=
      Instant.elapsed_plus _ _
    rw [← helapsed]
    exact settles_completion tt request id hrequests hreplies choices hlabel hsecond hfinal
  · let tt := Timetable.ofMillis clock strict window source start contextDelay idleTimeout
      finalDelay timeout hclock hdraw htimeout hidle hnameable (Nat.ne_of_lt hlate).symm
      fun hearly => absurd hlate (Nat.lt_asymm hearly)
    have hidle : tt.idle < tt.second := lt_ofMillis.mpr hlate
    have helapsed : tt.start.elapsed tt.idle = .ofMillis idleTimeout := Instant.elapsed_plus _ _
    rw [← helapsed]
    exact ⟨settles_patience tt request id hrequests hreplies choices hlabel hidle, fun n =>
      (kept_after tt ranker request id hrequests hreplies choices n).said_one hidle⟩

/-- A call between two parties with little to say, at the start of their clock. -/
def trial (contextDelay idleTimeout : Duration) : Conversation :=
  ofStart ⟨.ofMillis 50, idleTimeout, false⟩ .nothing 1 ⟨"mug", "B1", "large"⟩
    ⟨contextDelay, .fixed (.ofMillis 60)⟩ ⟨fun _ => 0, 0⟩ .start 4 8

/-- In such a call with ample patience the final revision comes before the decision. -/
theorem deadlines_decide_trial :
    (∀ c revision, (Ranker.nothing c revision).revision = revision) ∧ 1 ≤ 4 ∧ 1 ≤ 8 ∧
      (∀ n, Clock.millis.Shows (Instant.start.plus (.ofMillis n))) ∧
      ((DecisionWindow.fixed (.ofMillis 60)).sample? ⟨fun _ => 0, 0⟩).map Prod.fst =
        some (.ofMillis 60) ∧
      0 < 60 ∧ 0 < 5000 ∧ Nameable .start 50 5000 50 60 ∧ 50 < 5000 ∧ 50 < 60 ∧
      Settles (trial (.ofMillis 50) (.ofMillis 5000)) .millis (fun n => n)
        (Reports · [1, 2, 3] (some (Ranker.nothing ⟨"mug", "B1", "large"⟩ 3)) .serverClosed
          (.ofMillis 100)) := by
  have hlabel : ∀ c revision, (Ranker.nothing c revision).revision = revision := fun _ _ => rfl
  have hclock : ∀ n, Clock.millis.Shows (Instant.start.plus (.ofMillis n)) :=
    shows_ofMillis (by decide)
  have hdraw : ((DecisionWindow.fixed (.ofMillis 60)).sample? ⟨fun _ => 0, 0⟩).map Prod.fst =
      some (.ofMillis 60) := by decide
  have hnameable : Nameable .start 50 5000 50 60 :=
    ⟨by decide, by decide, fun _ => by decide, fun _ => by decide⟩
  obtain ⟨-, hlater, -⟩ := deadlines_decide hlabel 1 ⟨"mug", "B1", "large"⟩ false
    (by decide : 1 ≤ 4) (by decide : 1 ≤ 8) hclock hdraw (by decide) (by decide) hnameable fun n => n
  exact ⟨hlabel, by decide, by decide, hclock, hdraw, by decide, by decide, hnameable, by decide,
    by decide, hlater (by decide) (by decide)⟩

/-- Two calls in which the caller is to wait longer than the session, and that do not
come to what one might think.  One session has no patience at all: it leaves before it
has read anything.  One caller is to wait for a moment that its clock cannot name: it
breaks down. -/
theorem settles_otherwise :
    let hasty := trial (.ofMillis 50) (.ofMillis 0)
    let endless := trial (.ofSeconds (Word.size64 - 1)) (.ofMillis 100)
    (Settles hasty .millis (fun _ => 0) (Reports · [] none .serverClosed (.ofMillis 0)) ∧
      ¬ Settles hasty .millis (fun _ => 0) (Reports · [1]
        (some (Ranker.nothing ⟨"mug", "B1", ""⟩ 1)) .serverClosed (.ofMillis 0))) ∧
    ¬ Settles endless .millis (fun _ => 0) (Reports · [1]
      (some (Ranker.nothing ⟨"mug", "B1", ""⟩ 1)) .serverClosed (.ofMillis 100)) := by
  intro hasty endless
  have hhasty : (hasty.after .millis (fun _ => 0) 12).AtRest .millis := ⟨by decide, by decide⟩
  have houtcome : (hasty.after .millis (fun _ => 0) 12).setting.exchange.outcome? =
      some ⟨none, [], none, .serverClosed, .ofMillis 0⟩ := by decide
  have hendless : (endless.after .millis (fun _ => 0) 15).AtRest .millis := ⟨by decide, by decide⟩
  have hbroken : (endless.after .millis (fun _ => 0) 15).setting.exchange.outcome? = none := by
    decide
  refine ⟨⟨settles_of_rest hhasty ⟨_, houtcome, rfl, rfl, rfl, rfl⟩,
    not_settles_of_rest hhasty ?_⟩, not_settles_of_rest hendless ?_⟩
  · rintro ⟨o, ho, hrevisions, -⟩
    obtain rfl := Option.some.inj (ho.symm.trans houtcome)
    cases hrevisions
  · rintro ⟨o, ho, -⟩
    cases ho.symm.trans hbroken

end Conversation
end ProgressiveSearch
