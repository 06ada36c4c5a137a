import ProgressiveSearch.Proofs.Exchange.Play

/-! # When and why an exchange ends

An exchange that meets a script ends as was `foretold` (`ends_as_foretold`), and only
so.  At every moment one can tell from the exchange, and from what the script still
has for it, what is ahead (`outlook`).  No way on leads to anything that was not ahead
before (`foresees_advance`); and every way on brings the end nearer
(`distance_advance`).
-/
namespace ProgressiveSearch.Exchange
namespace Play

variable (p : Play) (clock : Clock)

/-! ## What is ahead -/

/-- How the receiver ends with what waits for it, if it does. -/
def pendingEnd? (replies : Channel Reply) : Option ReceiveEnd :=
  (replies.queue.findSome? ending?).or (if replies.senderGone then some .completed else none)

/-- What is in store: what has come but has not been seen is there at once. -/
def prospect : Prospect where
  cancel :=
    if p.setting.exchange.cancelled then some p.setting.now else momentOf .cancel p.script
  ending :=
    match p.setting.exchange.receiver with
    | .over ending => some (p.setting.now, ending)
    | .absent | .reading =>
      ((pendingEnd? p.setting.exchange.stream.replies).map (p.setting.now, ·)).or (endOf p.script)

/-- The requests are refused by `t`. -/
def refusedBy (t : Instant) : Bool :=
  p.setting.exchange.stream.requests.receiverGone || Exchange.refusedBy p.script t

/-- What is ahead of an exchange with this in store, told from where it stands. -/
def ahead (e : Exchange) (x : Prospect) (refused : Instant → Bool) (now : Instant)
    (first second : Bool) : Forecast :=
  match e.stage with
  | .starting | .offeringFirst | .resuming =>
    x.afterResuming clock e.timeout? first second e.params.contextDelay e.firstSent refused now
  | .pausing deadline =>
    x.afterPausing clock e.timeout? first second refused (clock.wakes now deadline)
  | .offeringSecond => x.afterOffering clock e.timeout? second (refused now) now
  | .deciding deadline => x.afterDeciding second (clock.wakes now deadline)
  | .releasing termination => (now, some termination)
  | .over o => (now, some o.termination)
  | .brokenDown => (now, none)

/-- What is ahead. -/
def outlook (first second : Bool) : Forecast :=
  ahead clock p.setting.exchange p.prospect p.refusedBy p.setting.now first second

/-- This is ahead, if the receiver is prompt or late as may be; if it is eager it is
always prompt. -/
def Foresees (eager : Prop) (y : Forecast) : Prop :=
  ∃ first second, (eager → first = true ∧ second = true) ∧ p.outlook clock first second = y

section Ahead
variable {p clock} {receiverFirst : Bool}

/-! ### The script -/

theorem cancelled_take (x : Setting) (c : Cue) :
    (x.take c).exchange.cancelled = (x.exchange.cancelled || c = .cancel) := by
  cases c with
  | cancel => simp [Setting.take, cancel]
  | refuse | close => simp [Setting.take, Setting.withStream]
  | pick | bring _ =>
    unfold Setting.take
    dsimp only
    split <;> simp [Setting.withStream]

theorem refused_take (x : Setting) (c : Cue) :
    (x.take c).exchange.stream.requests.receiverGone =
      (x.exchange.stream.requests.receiverGone || c = .refuse) := by
  cases c with
  | refuse => simp [Setting.take, Setting.withStream, Channel.dropReceiver]
  | cancel | close => simp [Setting.take, Setting.withStream, cancel]
  | pick =>
    unfold Setting.take
    dsimp only
    split
    · rename_i hg _
      simp [Setting.withStream, hg]
    · simp
  | bring _ =>
    unfold Setting.take
    dsimp only
    split <;> simp [Setting.withStream]

/-- What comes in is the last that can end the receiver. -/
theorem pendingEnd?_take {x : Setting} (hg : x.exchange.stream.replies.receiverGone = false)
    (c : Cue) : pendingEnd? (x.take c).exchange.stream.replies =
      (pendingEnd? x.exchange.stream.replies).or c.ending? := by
  cases c with
  | cancel | refuse => exact (Option.or_none).symm
  | close =>
    show (Option.or _ (some _)) = ((Option.or _ _).or (some _))
    rw [Option.or_assoc]
    congr 1
    split <;> rfl
  | pick =>
    unfold Setting.take
    dsimp only
    split
    · exact (Option.or_none).symm
    · exact (Option.or_none).symm
  | bring r =>
    unfold Setting.take
    dsimp only
    cases hs : x.exchange.stream.replies.senderGone with
    | true =>
      -- what comes after the close is lost
      simp [pendingEnd?, hs]
    | false =>
      simp [pendingEnd?, hs, hg, Setting.withStream, Channel.put, List.findSome?_append,
        Cue.ending?]

theorem prospect_takes {t : Instant} {c : Cue} {rest : Script} (h : p.Punctual clock)
    (hs : p.script = (t, c) :: rest) (ht : t = p.setting.now) :
    prospect ⟨p.setting.take c, rest⟩ = p.prospect := by
  have hpresent := h.faithful.attentive.present
  unfold prospect
  rw [Setting.now_take, Setting.receiver_take, cancelled_take, hs, momentOf_cons, endOf_cons, ht]
  congr 1
  · by_cases hc : c = .cancel
    · simp [hc]
    · simp [hc]
  · cases hr : p.setting.exchange.receiver with
    | «over» ending => rfl
    | absent | reading =>
      have hg := hpresent (by simp [hr])
      simp only [pendingEnd?_take hg, Option.map_or, Option.or_assoc]

theorem refusedBy_takes {t u : Instant} {c : Cue} {rest : Script}
    (hs : p.script = (t, c) :: rest) (ht : t = p.setting.now) (hu : p.setting.now ≤ u) :
    refusedBy ⟨p.setting.take c, rest⟩ u = p.refusedBy u := by
  unfold refusedBy Exchange.refusedBy
  rw [refused_take, hs, momentOf_cons, ht]
  by_cases hc : c = .refuse
  · simp [hc, hu]
  · simp [hc]

/-! ### The two tasks -/

theorem cancelled_turn {e e' : Exchange} {now : Instant} {said : List Context}
    (ht : e.Turn now said e') : e'.cancelled = e.cancelled := by
  cases ht with
  | sendsSecond _ _ =>
    obtain ⟨stage, source, drawn, journal, he, -⟩ :=
      (e.say e.request.secondContext).decide_spec now
    rw [he]
    rfl
  | _ => rfl

/-- The caller does not change what is in store, -/
theorem prospect_calls {said : List Context} {e : Exchange} (h : p.setting.Faithful)
    (ht : p.setting.exchange.Turn p.setting.now said e) :
    prospect { p with setting := p.setting.afterTurn said e } = p.prospect := by
  unfold prospect
  simp only [Setting.afterTurn, cancelled_turn ht, ht.speaks.replies]
  rcases h.spoken.receiver_turn ht with hr | ⟨habsent, hr⟩
  · rw [hr]
  · rw [hr, habsent]

theorem refusedBy_calls {said : List Context} {e : Exchange}
    (ht : p.setting.exchange.Turn p.setting.now said e) (t : Instant) :
    refusedBy { p with setting := p.setting.afterTurn said e } t = p.refusedBy t := by
  unfold refusedBy
  dsimp only [Setting.afterTurn]
  rw [ht.speaks.refused]

/-- and neither does the receiver, as long as it is not told to stop. -/
theorem prospect_hears {heard : List Reply} {e : Exchange}
    (hs : p.setting.exchange.stopping = false)
    (hh : p.setting.exchange.Hearing p.setting.now heard e) :
    prospect { p with setting := p.setting.afterHearing heard e } = p.prospect := by
  unfold prospect
  dsimp only [Setting.afterHearing]
  cases hh with
  | isStopped _ hs' => cases hs'.symm.trans hs
  | completes hr _ hq hg => simp [record, endReceiver, pendingEnd?, hr, hq, hg]
  | @takes reply rest hr _ hq =>
    cases reply with
    | batch b =>
      simp [takeReply, onReply, store, pendingEnd?, List.findSome?_cons, ending?, hr, hq]
    | failed status =>
      simp [takeReply, onReply, record, endReceiver, pendingEnd?, List.findSome?_cons, ending?, hr,
        hq]
    | fault =>
      simp [takeReply, onReply, endReceiver, pendingEnd?, List.findSome?_cons, ending?, hr, hq]

theorem timeout?_hearing {e e' : Exchange} {now : Instant} {heard : List Reply}
    (hh : e.Hearing now heard e') :
    e'.timeout? = e.timeout? ∧ e'.params.contextDelay = e.params.contextDelay := by
  cases hh with
  | isStopped _ _ | completes _ _ _ _ => exact ⟨rfl, rfl⟩
  | @takes reply _ _ _ _ => cases reply <;> exact ⟨rfl, rfl⟩

/-! ### Nothing in store is past -/

theorem now_lt_script (h : p.Punctual clock) (hd : p.due? = none) :
    ∀ entry ∈ p.script, p.setting.now < entry.1 := by
  have horder := h.order
  unfold due? at hd
  cases hs : p.script with
  | nil => simp
  | cons first rest =>
    obtain ⟨t, c⟩ := first
    rw [hs] at horder hd
    have hlt : p.setting.now < t := by
      by_cases hle : t ≤ p.setting.now
      · simp [hle] at hd
      · exact Nat.lt_of_not_le hle
    intro entry hm
    rcases List.mem_cons.mp hm with rfl | hm
    · exact hlt
    · exact Nat.lt_of_lt_of_le hlt (horder.tail.2.all _ hm)

theorem now_le_ending (h : p.Punctual clock) :
    ∀ e ∈ p.prospect.ending, p.setting.now ≤ e.1 := by
  rintro ⟨t, e⟩ ht
  have hscript : endOf p.script = some (t, e) → p.setting.now ≤ t := by
    intro hend
    obtain ⟨c, hm, -⟩ := mem_of_endOf hend
    exact h.order.all _ hm
  unfold prospect at ht
  dsimp only at ht
  split at ht
  · obtain ⟨rfl, -⟩ := Prod.mk.inj (Option.some.inj ht)
    exact Nat.le_refl _
  all_goals
    rcases Option.or_eq_some_iff.mp ht with hpending | ⟨-, hend⟩
    · obtain ⟨_, -, hp⟩ := Option.map_eq_some_iff.mp hpending
      obtain ⟨rfl, -⟩ := Prod.mk.inj hp
      exact Nat.le_refl _
    · exact hscript hend

/-- A call that has not been given up will be given up later, if at all. -/
theorem now_lt_cancel (h : p.Punctual clock) (hd : p.due? = none)
    (hc : p.setting.exchange.cancelled = false) :
    ∀ t ∈ p.prospect.cancel, p.setting.now < t := by
  intro t ht
  unfold prospect at ht
  rw [if_neg (by simp [hc])] at ht
  exact now_lt_script h hd _ (mem_of_momentOf ht)

/-- A receiver with nothing to hear will end later, if at all. -/
theorem now_lt_ending (h : p.Punctual clock) (hd : p.due? = none)
    (hover : ∀ ending, p.setting.exchange.receiver ≠ .over ending)
    (hp : pendingEnd? p.setting.exchange.stream.replies = none) :
    ∀ e ∈ p.prospect.ending, p.setting.now < e.1 := by
  rintro ⟨t, e⟩ ht
  unfold prospect at ht
  dsimp only at ht
  split at ht
  · rename_i hr
    exact absurd hr (hover _)
  all_goals
    rw [hp] at ht
    obtain ⟨c, hm, -⟩ := mem_of_endOf (Option.or_eq_some_iff.mp ht |>.resolve_left nofun).2
    exact now_lt_script h hd _ hm

/-! ### Nothing new comes up -/

/-- The caller stands where it stood. -/
structure Stays (e e' : Exchange) : Prop where
  stage : e'.stage = e.stage
  timeout : e'.timeout? = e.timeout?
  delay : e'.params.contextDelay = e.params.contextDelay
  firstSent : e'.firstSent = e.firstSent

/-- Where a caller stands, and the refusals from now on, are all that counts. -/
theorem ahead_congr {e e' : Exchange} {x : Prospect} {refused refused' : Instant → Bool}
    {now : Instant} (h : Stays e e') (hr : ∀ u, now ≤ u → refused' u = refused u)
    (first second : Bool) :
    ahead clock e' x refused' now first second = ahead clock e x refused now first second := by
  have hpausing : ∀ deadline, x.afterPausing clock e.timeout? first second refused'
      (clock.wakes now deadline) =
        x.afterPausing clock e.timeout? first second refused (clock.wakes now deadline) := by
    intro deadline
    unfold Prospect.afterPausing
    rw [hr _ (clock.le_wakes now deadline)]
  unfold ahead
  rw [h.stage, h.timeout, h.delay, h.firstSent]
  split
  · unfold Prospect.afterResuming
    simp only [hpausing]
  · unfold Prospect.afterResuming
    simp only [hpausing]
  · unfold Prospect.afterResuming
    simp only [hpausing]
  · exact hpausing _
  · rw [hr now (Nat.le_refl _)]
  · rfl
  · rfl
  · rfl
  · rfl

/-- What the script brings was ahead. -/
theorem outlook_takes {t : Instant} {c : Cue} {rest : Script} (h : p.Punctual clock)
    (hs : p.script = (t, c) :: rest) (ht : t ≤ p.setting.now) (first second : Bool) :
    outlook ⟨p.setting.take c, rest⟩ clock first second = p.outlook clock first second := by
  have hat : t = p.setting.now := Instant.le_antisymm ht (h.order.all (t, c) (by simp [hs]))
  have hstays : Stays p.setting.exchange (p.setting.take c).exchange := by
    obtain ⟨_, _, _, _, he⟩ := p.setting.take_eq c
    rw [he]
    exact ⟨rfl, rfl, rfl, rfl⟩
  unfold outlook
  rw [prospect_takes h hs hat, Setting.now_take]
  exact ahead_congr hstays (fun u => refusedBy_takes hs hat) first second

/-- What the receiver does was ahead. -/
theorem outlook_hears {heard : List Reply} {e : Exchange} (h : p.Punctual clock)
    (hh : p.setting.exchange.Hearing p.setting.now heard e) (first second : Bool) :
    outlook { p with setting := p.setting.afterHearing heard e } clock first second =
      p.outlook clock first second := by
  have hm := hh.minds
  obtain ⟨htimeout, hdelay⟩ := timeout?_hearing hh
  have hstays : Stays p.setting.exchange e := ⟨hm.stage, htimeout, hdelay, hm.firstSent⟩
  have hrefused : ∀ u, p.setting.now ≤ u →
      refusedBy { p with setting := p.setting.afterHearing heard e } u = p.refusedBy u := by
    intro u _
    unfold refusedBy
    dsimp only [Setting.afterHearing]
    rw [hm.requests]
  refine (ahead_congr hstays hrefused first second).trans ?_
  cases hs : p.setting.exchange.stopping with
  | false => rw [prospect_hears hs hh, outlook]
  | true =>
    -- a receiver is told to stop when nothing in store matters any more
    have hstaged := h.staged
    unfold Staged at hstaged
    unfold outlook ahead
    cases hstage : p.setting.exchange.stage with
    | starting | offeringFirst => simp only [hstage] at hstaged
    | resuming | pausing _ | offeringSecond | deciding _ => simp [hstage, hs] at hstaged
    | releasing _ | «over» _ | brokenDown => rfl

/-- When time goes on, nothing that was ahead is passed over. -/
theorem outlook_waits {t deadline : Instant} (h : p.Punctual clock)
    (hi : Idles p.setting.exchange p.setting.now deadline) (hn : p.nextMoment? clock = some t)
    (first second : Bool) :
    outlook { p with setting := p.setting.act (.pass (p.setting.now.elapsed t)) } clock first
      second = p.outlook clock first second := by
  obtain ⟨hle, hshown⟩ := h.nextMoment hn
  have hnow : (p.setting.act (.pass (p.setting.now.elapsed t))).now = t :=
    Instant.plus_elapsed hle
  have hwakes : clock.wakes t deadline = clock.wakes p.setting.now deadline := by
    refine Clock.wakes_eq hshown hle ((nextMoment_le hn).2 _ ?_)
    unfold wakesAt Exchange.wakesAt
    rcases hi.waiting with hs | hs
    · simp [hs]
    · simp [hs]
  have hprospect : prospect
      { p with setting := p.setting.act (.pass (p.setting.now.elapsed t)) } = p.prospect := by
    unfold prospect
    simp [Setting.act, pendingEnd?, hi.uncancelled, hi.reading, hi.silent, hi.bound]
  unfold outlook
  rw [hprospect, hnow]
  unfold ahead
  dsimp only [Setting.act]
  rcases hi.waiting with hs | hs
  · simp only [hs, hwakes]
    rfl
  · simp only [hs, hwakes]

/-- A wait that is cut short was going to be, if the receiver is prompt, -/
theorem cut?_now {termination : Termination} {u : Instant} (h : p.Punctual clock)
    (hd : p.due? = none) (hc : p.setting.exchange.Cut termination) (hu : p.setting.now ≤ u) :
    p.prospect.cut? true u = some (p.setting.now, termination) := by
  cases hc with
  | cancelled hc =>
    have hcancel : p.prospect.cancel = some p.setting.now := if_pos hc
    exact cut?_cancelled hcancel hu (now_le_ending h)
  | @ended ending hc hr =>
    have hending : p.prospect.ending = some (p.setting.now, ending) := by
      unfold prospect
      simp [hr]
    exact cut?_ended hending hu (now_lt_cancel h hd hc)

/-- and one that elapses was going to, if the receiver is late or has nothing to hear. -/
theorem cut?_elapsed {deadline : Instant} {prompt : Bool} (h : p.Punctual clock)
    (hd : p.due? = none) (ha : p.setting.exchange.receiver ≠ .absent)
    (he : p.setting.exchange.Elapses p.setting.now deadline)
    (hr : prompt = true → p.setting.exchange.receive p.setting.now = none) :
    p.prospect.cut? prompt p.setting.now = none := by
  refine cut?_none (now_lt_cancel h hd he.uncancelled) (now_le_ending h) fun hp => ?_
  have hreading : p.setting.exchange.receiver = .reading := by
    cases hrec : p.setting.exchange.receiver with
    | absent => exact absurd hrec ha
    | reading => rfl
    | «over» ending => exact absurd hrec (he.unended ending)
  obtain ⟨-, hq, hg⟩ := receive_eq_none (hr hp) hreading
  exact now_lt_ending h hd he.unended (by simp [pendingEnd?, hq, hg])

/-- Requests that are taken have not been refused. -/
theorem refusedBy_now (h : p.Punctual clock) (hd : p.due? = none)
    (hg : p.setting.exchange.stream.requests.receiverGone = false) :
    p.refusedBy p.setting.now = false := by
  unfold refusedBy Exchange.refusedBy
  rw [hg, Bool.false_or]
  cases hm : momentOf .refuse p.script with
  | none => rfl
  | some t =>
    have hlt := now_lt_script h hd _ (mem_of_momentOf hm)
    exact decide_eq_false (Nat.not_le.mpr hlt)

/-- To decide is to wait for the moment of the decision, or to break down if there is
none. -/
theorem decide_stage (e : Exchange) (now : Instant) :
    (e.decide now).stage = match e.timeout?.bind now.after? with
      | none => .brokenDown
      | some deadline => .deciding deadline := by
  cases hs : e.params.window.sample? e.source with
  | none => simp [decide, timeout?, record, closeRequests, breakDown, hs]
  | some drawn =>
    obtain ⟨timeout, source⟩ := drawn
    cases hd : now.after? timeout with
    | none => simp [decide, timeout?, record, closeRequests, breakDown, hs, hd]
    | some deadline => simp [decide, timeout?, record, closeRequests, hs, hd]

/-- What the caller does was ahead, with a receiver that was late if it could have
taken a step. -/
theorem foresees_calls {said : List Context} {e : Exchange} {eager : Prop} {y : Forecast}
    (h : p.Punctual clock) (hd : p.due? = none)
    (ht : p.setting.exchange.Turn p.setting.now said e)
    (hr : eager → p.setting.exchange.receive p.setting.now = none)
    (hy : Foresees { p with setting := p.setting.afterTurn said e } clock eager y) :
    p.Foresees clock eager y := by
  obtain ⟨first, second, hprompt, rfl⟩ := hy
  have hprospect := prospect_calls h.faithful ht
  have hrefused : refusedBy { p with setting := p.setting.afterTurn said e } = p.refusedBy :=
    funext (refusedBy_calls ht)
  have hstaged := h.staged
  unfold Staged at hstaged
  -- the receiver is late if it could take a step
  have hlate : ∀ {deadline}, p.setting.exchange.Elapses p.setting.now deadline →
      p.setting.exchange.receiver ≠ .absent → ∃ prompt, (eager → prompt = true) ∧
        p.prospect.cut? prompt p.setting.now = none := by
    intro deadline he ha
    cases hnone : p.setting.exchange.receive p.setting.now with
    | none => exact ⟨true, fun _ => rfl, cut?_elapsed h hd ha he fun _ => hnone⟩
    | some e' =>
      refine ⟨false, fun heager => ?_, cut?_elapsed h hd ha he nofun⟩
      cases hnone.symm.trans (hr heager)
  unfold outlook
  rw [hprospect, hrefused]
  unfold Foresees outlook
  dsimp only [Setting.afterTurn]
  cases ht with
  | announces hs | sendsFirst hs _ | losesFirst hs _ => simp only [hs] at hstaged
  | pauses hs hf hdl =>
    refine ⟨first, second, hprompt, ?_⟩
    simp only [ahead, hs, Prospect.afterResuming, hf, hdl]
    rfl
  | forgoes hs hf =>
    refine ⟨first, second, hprompt, ?_⟩
    simp only [ahead, hs, Prospect.afterResuming, hf, release]
  | breaks hs hf hdl =>
    refine ⟨first, second, hprompt, ?_⟩
    simp only [ahead, hs, Prospect.afterResuming, hf, hdl, breakDown]
  | @isCut deadline termination hs hc =>
    have hcut := cut?_now h hd hc (clock.le_wakes p.setting.now deadline)
    refine ⟨true, true, fun _ => ⟨rfl, rfl⟩, ?_⟩
    rcases hs with hs | hs
    · simp only [ahead, hs, Prospect.afterPausing, hcut, release]
    · simp only [ahead, hs, Prospect.afterDeciding, hcut, release]
  | @resumes deadline hs he =>
    simp only [hs] at hstaged
    obtain ⟨prompt, hp, hcut⟩ := hlate he hstaged.1
    refine ⟨prompt, second, fun heager => ⟨hp heager, (hprompt heager).2⟩, ?_⟩
    simp only [ahead, hs, Clock.wakes_of_le he.due, Prospect.afterPausing, hcut]
    rfl
  | sendsSecond hs ha =>
    have hopen := refusedBy_now h hd ha.present
    have hstage : ((p.setting.exchange.say p.setting.exchange.request.secondContext).decide
        p.setting.now).stage = match p.setting.exchange.timeout?.bind p.setting.now.after? with
          | none => Stage.brokenDown
          | some deadline => Stage.deciding deadline := decide_stage _ _
    refine ⟨first, second, hprompt, ?_⟩
    cases hb : p.setting.exchange.timeout?.bind p.setting.now.after? with
    | none =>
      simp only [hb] at hstage
      simp only [ahead, hs, Prospect.afterOffering, hopen, hb, hstage, Bool.false_eq_true, if_false]
    | some deadline =>
      simp only [hb] at hstage
      simp only [ahead, hs, Prospect.afterOffering, hopen, hb, hstage, Bool.false_eq_true, if_false]
  | losesSecond hs hg =>
    have hgone : p.refusedBy p.setting.now = true := by simp [refusedBy, hg]
    refine ⟨first, second, hprompt, ?_⟩
    simp only [ahead, hs, Prospect.afterOffering, hgone, release, if_true]
  | @decides deadline hs he =>
    simp only [hs] at hstaged
    obtain ⟨prompt, hp, hcut⟩ := hlate he hstaged.1
    refine ⟨first, prompt, fun heager => ⟨(hprompt heager).1, hp heager⟩, ?_⟩
    simp only [ahead, hs, Clock.wakes_of_le he.due, Prospect.afterDeciding, hcut, release]
  | concludes hs _ =>
    refine ⟨first, second, hprompt, ?_⟩
    simp only [ahead, hs, conclude, outcome]

/-- **Nothing comes up that was not ahead.** -/
theorem foresees_advance {q : Play} {eager : Prop} {y : Forecast} (h : p.Punctual clock)
    (ho : p.setting.exchange.verdict? = none) (ha : p.Advance clock receiverFirst q)
    (he : eager → receiverFirst = true) (hy : q.Foresees clock eager y) :
    p.Foresees clock eager y := by
  cases ha with
  | takes hs ht =>
    obtain ⟨first, second, hprompt, rfl⟩ := hy
    exact ⟨first, second, hprompt, (outlook_takes h hs ht first second).symm⟩
  | calls hd ht hr => exact foresees_calls h hd ht (fun heager => hr (he heager)) hy
  | hears _ hh =>
    obtain ⟨first, second, hprompt, rfl⟩ := hy
    exact ⟨first, second, hprompt, (outlook_hears h hh first second).symm⟩
  | waits _ hc hr hn =>
    obtain ⟨first, second, hprompt, rfl⟩ := hy
    obtain ⟨deadline, hi⟩ := h.idles ho hc hr
    exact ⟨first, second, hprompt, (outlook_waits h hi hn first second).symm⟩

/-! ## The end -/

/-- Only the caller comes to a verdict. -/
theorem verdict?_frame {q : Play} (ha : p.Advance clock receiverFirst q)
    (ho : p.setting.exchange.verdict? = none) :
    q.setting.exchange.verdict? = none ∨ ∃ said e,
      p.setting.exchange.Turn p.setting.now said e ∧ q.setting = p.setting.afterTurn said e := by
  have hsame : ∀ {e : Exchange}, e.stage = p.setting.exchange.stage → e.verdict? = none := by
    intro e hs
    unfold verdict? at ho ⊢
    rw [hs]
    exact ho
  cases ha with
  | @takes _ c _ _ _ => exact .inl (hsame (Setting.stage_take c))
  | calls _ ht _ => exact .inr ⟨_, _, ht, rfl⟩
  | hears _ hh => exact .inl (hsame hh.minds.stage)
  | waits _ _ _ _ => exact .inl ho

/-- **What an exchange comes to is what was ahead**, and the time that it reports has
passed. -/
theorem verdict_outlook {q : Play} {v : Verdict} (ho : p.setting.exchange.verdict? = none)
    (ha : p.Advance clock receiverFirst q) (hv : q.setting.exchange.verdict? = some v)
    (first second : Bool) :
    (q.outlook clock first second).1 = q.setting.now ∧
      verdictOf q.setting.exchange.startedAt (q.outlook clock first second) = v := by
  rcases verdict?_frame ha ho with hnone | ⟨said, e, ht, hq⟩
  · cases hnone.symm.trans hv
  · unfold outlook ahead
    rw [hq] at hv ⊢
    dsimp only [Setting.afterTurn] at hv ⊢
    cases hs : e.stage with
    | starting | offeringFirst | resuming | pausing _ | offeringSecond | deciding _
    | releasing _ => simp [verdict?, hs] at hv
    | brokenDown =>
      obtain rfl : Verdict.brokenDown = v := by simpa [verdict?, hs] using hv
      exact ⟨rfl, rfl⟩
    | «over» o =>
      obtain rfl : Verdict.concluded o.termination o.elapsed = v := by
        simpa [verdict?, hs] using hv
      have helapsed : o.elapsed = e.startedAt.elapsed p.setting.now := by
        cases ht with
        | concludes _ _ =>
          obtain rfl := Stage.over.inj hs
          rfl
        | sendsSecond _ _ =>
          obtain ⟨stage, source, drawn, journal, he, hstage⟩ :=
            (p.setting.exchange.say p.setting.exchange.request.secondContext).decide_spec
              p.setting.now
          rw [he] at hs
          rcases hstage with rfl | ⟨deadline, rfl⟩
          · cases hs
          · cases hs
        | _ => cases hs
      refine ⟨rfl, ?_⟩
      rw [helapsed]
      rfl

end Ahead

/-! ## The exchange ends -/

/-- How many turns are left to the caller at most. -/
def turnsLeft (e : Exchange) : Nat :=
  match e.stage with
  | .starting => 7
  | .offeringFirst => 6
  | .resuming => 5
  | .pausing _ => 4
  | .offeringSecond => 3
  | .deciding _ => 2
  | .releasing _ => 1
  | .over _ | .brokenDown => 0

/-- How often the receiver can still hear something, with what has come. -/
def hearingsLeft (e : Exchange) : Nat :=
  e.stream.replies.queue.length +
    match e.receiver with
    | .absent | .reading => 1
    | .over _ => 0

/-- What can still happen before time has to go on for the last time.  An entry of the
script weighs more than the reply that it may bring. -/
def workload : Nat :=
  2 * p.script.length + turnsLeft p.setting.exchange + hearingsLeft p.setting.exchange

/-- Only time can go on. -/
def stalls : Bool :=
  p.due?.isNone && (p.setting.exchange.call p.setting.now).isNone &&
    (p.setting.exchange.receive p.setting.now).isNone

/-- What can still happen, with the time counted. -/
def distance : Nat := 2 * p.workload + p.stalls.toNat

section Termination
variable {p clock} {receiverFirst : Bool} {e e' : Exchange} {now : Instant}

/-- Each turn brings the caller nearer to its end. -/
theorem turnsLeft_turn {said : List Context} (ht : e.Turn now said e') :
    turnsLeft e' < turnsLeft e := by
  unfold turnsLeft
  cases ht with
  | announces hs | losesFirst hs _ | pauses hs _ _ | forgoes hs _ | breaks hs _ _
  | resumes hs _ | losesSecond hs _ | decides hs _ | concludes hs _ | sendsFirst hs _ =>
    rw [hs]
    simp [announce, release, breakDown, startSecond, conclude]
  | isCut hs _ =>
    rcases hs with hs | hs
    · rw [hs]
      simp [release]
    · rw [hs]
      simp [release]
  | sendsSecond hs _ =>
    obtain ⟨stage, source, drawn, journal, he, hstage⟩ :=
      (e.say e.request.secondContext).decide_spec now
    rw [hs, he]
    rcases hstage with rfl | ⟨deadline, rfl⟩
    · exact Nat.zero_lt_succ 2
    · exact Nat.lt_succ_self 2

/-- The caller leaves what there is to hear alone. -/
theorem hearingsLeft_turn {said : List Context} {contexts : List Context}
    (hspoken : Setting.Spoken e contexts) (ht : e.Turn now said e') :
    hearingsLeft e' = hearingsLeft e := by
  unfold hearingsLeft
  rw [ht.speaks.replies]
  rcases hspoken.receiver_turn ht with hr | ⟨habsent, hr⟩
  · rw [hr]
  · rw [hr, habsent]

theorem hearingsLeft_hearing {heard : List Reply} (hh : e.Hearing now heard e') :
    hearingsLeft e' < hearingsLeft e := by
  unfold hearingsLeft
  cases hh with
  | isStopped hr _ | completes hr _ _ _ => simp [endReceiver, Channel.dropReceiver, record, hr]
  | @takes reply rest hr _ hq =>
    cases reply with
    | batch b => simp [takeReply, onReply, store, hr, hq]
    | failed status => simp [takeReply, onReply, record, endReceiver, Channel.dropReceiver, hr]
    | fault => simp [takeReply, onReply, endReceiver, Channel.dropReceiver, hr]

/-- What happens around an exchange adds no more than one reply. -/
theorem workload_takes {t : Instant} {c : Cue} {rest : Script} (hs : p.script = (t, c) :: rest) :
    workload ⟨p.setting.take c, rest⟩ < p.workload := by
  have hturns : turnsLeft (p.setting.take c).exchange = turnsLeft p.setting.exchange := by
    unfold turnsLeft
    rw [Setting.stage_take]
  have hqueue : (p.setting.take c).exchange.stream.replies.queue.length ≤
      p.setting.exchange.stream.replies.queue.length + 1 := by
    cases c with
    | cancel | refuse | close => exact Nat.le_succ _
    | pick | bring _ =>
      unfold Setting.take
      dsimp only
      split
      · simp [Setting.withStream]
      · simp [Setting.withStream, Channel.put]
  unfold workload hearingsLeft
  rw [hs, hturns, Setting.receiver_take, List.length_cons]
  dsimp only
  omega

/-- When time has gone on something can happen. -/
theorem stalls_waits {t deadline : Instant} (h : p.Punctual clock)
    (hi : Idles p.setting.exchange p.setting.now deadline) (hn : p.nextMoment? clock = some t) :
    stalls { p with setting := p.setting.act (.pass (p.setting.now.elapsed t)) } = false := by
  obtain ⟨hle, -⟩ := h.nextMoment hn
  have hnow : (p.setting.act (.pass (p.setting.now.elapsed t))).now = t :=
    Instant.plus_elapsed hle
  unfold stalls
  rw [Bool.and_assoc, Bool.and_eq_false_iff, Bool.and_eq_false_iff]
  rcases nextMoment_mem hn with ⟨entry, hm, rfl⟩ | hw
  -- either the script goes on, or the caller is woken
  · left
    unfold due?
    cases hs : p.script with
    | nil => simp [hs] at hm
    | cons first rest =>
      obtain rfl : first = entry := by simpa [hs] using hm
      dsimp only
      rw [hnow]
      exact congrArg Option.isNone (if_pos (Nat.le_refl _))
  · right
    left
    rw [hnow, Option.isNone_eq_false_iff, Option.isSome_iff_ne_none]
    intro hc
    have hstage : (p.setting.exchange.stage = .pausing deadline ∨
        p.setting.exchange.stage = .deciding deadline) := hi.waiting
    have hwake : p.setting.exchange.wake? t deadline = none := by
      unfold call at hc
      rcases hstage with hs | hs
      · simpa [Setting.act, hs] using hc
      · simpa [Setting.act, hs] using hc
    have hdue : deadline ≤ t := by
      have hwoken : clock.wakes p.setting.now deadline = t := by
        unfold wakesAt Exchange.wakesAt at hw
        rcases hstage with hs | hs
        · simpa [hs] using hw
        · simpa [hs] using hw
      exact hwoken ▸ clock.deadline_le_wakes _ _
    exact Nat.not_lt.mpr hdue (wake?_eq_none hwake).2.2

/-- **Everything that happens brings the end nearer.** -/
theorem distance_advance {q : Play} (h : p.Punctual clock)
    (ho : p.setting.exchange.verdict? = none) (ha : p.Advance clock receiverFirst q) :
    q.distance < p.distance := by
  have hq := Bool.toNat_le q.stalls
  unfold distance
  cases ha with
  | takes hs _ =>
    have hlt := workload_takes hs
    omega
  | calls _ ht _ =>
    have hturns := turnsLeft_turn ht
    have hhearings := hearingsLeft_turn h.faithful.spoken ht
    unfold workload
    dsimp only [Setting.afterTurn] at hq ⊢
    omega
  | @hears _ e _ hh =>
    have hturns : turnsLeft e = turnsLeft p.setting.exchange := by
      unfold turnsLeft
      rw [hh.minds.stage]
    have hhearings := hearingsLeft_hearing hh
    unfold workload
    dsimp only [Setting.afterHearing] at hq ⊢
    omega
  | @waits t hd hc hr hn =>
    -- time alone changes nothing, but it brings something to do
    obtain ⟨deadline, hi⟩ := h.idles ho hc hr
    have hsame : workload { p with setting := p.setting.act (.pass (p.setting.now.elapsed t)) } =
        p.workload := rfl
    have hbusy := stalls_waits h hi hn
    have hstalls : p.stalls = true := by simp [stalls, hd, hc, hr]
    rw [hbusy, hstalls, hsame]
    exact Nat.lt_succ_self _

/-- The call began when it began. -/
theorem startedAt_advance {q : Play} (h : p.Punctual clock)
    (ha : p.Advance clock receiverFirst q) :
    q.setting.exchange.startedAt = p.setting.exchange.startedAt := by
  have hstaged := h.staged
  unfold Staged at hstaged
  cases ha with
  | @takes _ c _ _ _ =>
    obtain ⟨_, _, _, _, he⟩ := p.setting.take_eq c
    rw [he]
  | waits _ _ _ _ => rfl
  | hears _ hh =>
    dsimp only [Setting.afterHearing]
    cases hh with
    | isStopped _ _ | completes _ _ _ _ => rfl
    | @takes reply _ _ _ _ => cases reply <;> rfl
  | calls _ ht _ =>
    dsimp only [Setting.afterTurn]
    cases ht with
    | announces hs => simp only [hs] at hstaged
    | sendsSecond _ _ =>
      obtain ⟨stage, source, drawn, journal, he, -⟩ :=
        (p.setting.exchange.say p.setting.exchange.request.secondContext).decide_spec p.setting.now
      rw [he]
      rfl
    | _ => rfl

/-- **A play ends as is ahead of it.** -/
theorem ends_as_foreseen (h : p.Punctual clock) (ho : p.setting.exchange.verdict? = none)
    {choices : Nat → Bool} {eager : Prop} (he : eager → ∀ n, choices n = true) :
    ∃ y, p.Foresees clock eager y ∧
      p.EndsAt clock choices y.1 (verdictOf p.setting.exchange.startedAt y) := by
  induction hdist : p.distance using Nat.strongRecOn generalizing p choices with
  | ind n ih =>
    have ha := h.advances ho (choices 0)
    have hstarted := startedAt_advance h ha
    have hforesees : ∀ {y}, (p.next clock (choices 0)).Foresees clock eager y →
        p.Foresees clock eager y := foresees_advance h ho ha fun heager => he heager 0
    cases hv : (p.next clock (choices 0)).setting.exchange.verdict? with
    | some v =>
      obtain ⟨ht, hverdict⟩ := verdict_outlook ho ha hv true true
      refine ⟨_, hforesees ⟨true, true, fun _ => ⟨rfl, rfl⟩, rfl⟩, 1, ?_, ht.symm⟩
      rw [← hstarted, hverdict]
      exact hv
    | none =>
      have hlt := distance_advance h ho ha
      obtain ⟨y, hy, m, hm, ht⟩ := ih _ (hdist ▸ hlt) (punctual_advance h ho ha) hv
        (fun heager n => he heager (n + 1)) rfl
      refine ⟨y, hforesees hy, m + 1, ?_, ?_⟩
      · rw [after_succ, ← hstarted]
        exact hm
      · rw [after_succ]
        exact ht

/-- At the start, what is ahead was foretold. -/
theorem outlook_ofResumed (h : e.Resumed) (clock : Clock) (start : Instant) (script : Script)
    (first second : Bool) : (ofResumed e start script).outlook clock first second =
      foretold clock e start script first second := by
  have hprospect : (ofResumed e start script).prospect = Exchange.prospect script := by
    simp [Play.prospect, Exchange.prospect, ofResumed, Setting.around, pendingEnd?, h.uncancelled,
      h.absent, h.silent, h.bound]
  have hrefused : (ofResumed e start script).refusedBy = Exchange.refusedBy script := by
    funext t
    simp [refusedBy, ofResumed, Setting.around, h.accepts.present]
  have hstage : (ofResumed e start script).setting.exchange.stage = .resuming := h.resuming
  unfold outlook ahead
  rw [hprospect, hrefused, hstage]
  rfl

end Termination

end Play

/-- **When and why an exchange ends.**  One that goes on from its first context, with
room for the second, comes to the end that was foretold, and to no other, whatever
the choices; and where the receiver is chosen to go first, it is prompt.  So it ends
as one that was given up only if so it was, or its receiver was lost. -/
theorem ends_as_foretold (clock : Clock) {e : Exchange} (h : e.Resumed) {start : Instant}
    {script : Script} (horder : InOrder start script) (hstart : clock.Shows start)
    (hshows : ∀ entry ∈ script, clock.Shows entry.1) (choices : Nat → Bool) :
    ∃ first second, ((∀ n, choices n = true) → first = true ∧ second = true) ∧
      let y := foretold clock e start script first second
      (∀ t v, (Play.ofResumed e start script).EndsAt clock choices t v ↔
        t = y.1 ∧ v = verdictOf e.startedAt y) ∧
      (y.2 = some .cancelled →
        momentOf .cancel script = some y.1 ∨ endOf script = some (y.1, .stopped)) := by
  have hpunctual := Play.punctual_ofResumed h horder hstart hshows
  have ho : (Play.ofResumed e start script).setting.exchange.verdict? = none := by
    have hstage : (Play.ofResumed e start script).setting.exchange.stage = .resuming := h.resuming
    simp [verdict?, hstage]
  obtain ⟨y, ⟨first, second, hprompt, rfl⟩, hends⟩ :=
    Play.ends_as_foreseen hpunctual ho (show (∀ n, choices n = true) → _ from id)
  rw [Play.outlook_ofResumed h] at hends
  refine ⟨first, second, hprompt, fun t v => ⟨fun h' => hends.unique h', ?_⟩, fun hy => ?_⟩
  · rintro ⟨rfl, rfl⟩
    exact hends
  · exact cancelled_foretold (Prod.ext rfl hy)

/-- A call that began at the start of its clock, where its first context was sent. -/
def pausing (delay timeout : Duration) : Exchange :=
  { prepare ⟨"mug", "B1", "large"⟩ ⟨delay, .fixed timeout⟩ ⟨fun _ => 0, 0⟩ (.ofCapacities 4 8) with
    firstSent := some .start, stage := .resuming }

theorem resumed_pausing (delay timeout : Duration) : (pausing delay timeout).Resumed :=
  ⟨rfl, rfl, rfl, rfl, rfl, ⟨rfl, rfl⟩, rfl, rfl, rfl⟩

/-- Two batches, and then a failure. -/
def mishap : Script :=
  let after (millis : Nat) := Instant.start.plus (.ofMillis millis)
  [(after 10, .bring (.batch ⟨[], 1⟩)), (after 50, .pick), (after 60, .bring (.batch ⟨[], 2⟩)),
    (after 105, .bring (.failed (.of .internal "broken"))), (after 105, .close)]

/-- Such a call ends with the failure, before it has come to decide. -/
theorem ends_as_foretold_mishap :
    (pausing (.ofMillis 50) (.ofMillis 60)).Resumed ∧ InOrder .start mishap ∧
      Clock.millis.Shows .start ∧ (∀ entry ∈ mishap, Clock.millis.Shows entry.1) ∧
      (Play.ofResumed (pausing (.ofMillis 50) (.ofMillis 60)) .start mishap).EndsAt .millis
        (fun _ => true) (Instant.start.plus (.ofMillis 105))
        (.concluded (.streamFailed .internal) (.ofMillis 105)) := by
  have hr := resumed_pausing (.ofMillis 50) (.ofMillis 60)
  have ho : InOrder .start mishap := by decide
  have hs : Clock.millis.Shows .start := by decide
  have hshows : ∀ entry ∈ mishap, Clock.millis.Shows entry.1 := by decide
  obtain ⟨first, second, hprompt, hends, -⟩ :=
    ends_as_foretold .millis hr ho hs hshows fun _ => true
  obtain ⟨rfl, rfl⟩ := hprompt fun _ => rfl
  have hforetold : foretold .millis (pausing (.ofMillis 50) (.ofMillis 60)) .start mishap true true =
      (Instant.start.plus (.ofMillis 105), some (.streamFailed .internal)) := by decide
  rw [hforetold] at hends
  exact ⟨hr, ho, hs, hshows, (hends _ _).mpr ⟨rfl, rfl⟩⟩

/-- Three calls that do not end when and as one might think.  One is given up at the
start, but its second context lies beyond what a clock can name: it breaks down.  One
has neither to pause nor to decide, and does not hear that its replies are closed.
One is to decide after half a millisecond of which its clock shows nothing. -/
theorem ends_otherwise :
    let endless := Play.ofResumed (pausing (.ofSeconds (Word.size64 - 1)) .zero) .start
      [(.start, .cancel)]
    let hasty := Play.ofResumed (pausing .zero .zero) .start [(.start, .close)]
    let halved := Play.ofResumed (pausing (.ofMillis 50) ⟨30500000⟩) .start []
    (endless.EndsAt .exact (fun _ => true) .start .brokenDown ∧
      ¬ endless.EndsAt .exact (fun _ => true) .start (.concluded .cancelled .zero)) ∧
    (hasty.EndsAt .exact (fun _ => false) .start (.concluded .decisionTimeout .zero) ∧
      ¬ hasty.EndsAt .exact (fun _ => false) .start (.concluded .serverClosed .zero)) ∧
    halved.EndsAt .millis (fun _ => true) ⟨81000000⟩
        (.concluded .decisionTimeout ⟨81000000⟩) ∧
      ¬ halved.EndsAt .millis (fun _ => true) ⟨80500000⟩
        (.concluded .decisionTimeout ⟨80500000⟩) := by
  intro endless hasty halved
  have hendless : endless.EndsAt .exact (fun _ => true) .start .brokenDown :=
    ⟨2, by decide, by decide⟩
  have hhasty : hasty.EndsAt .exact (fun _ => false) .start
      (.concluded .decisionTimeout .zero) := ⟨7, by decide, by decide⟩
  have hhalved : halved.EndsAt .millis (fun _ => true) ⟨81000000⟩
      (.concluded .decisionTimeout ⟨81000000⟩) := ⟨8, by decide, by decide⟩
  refine ⟨⟨hendless, fun h => ?_⟩, ⟨hhasty, fun h => ?_⟩, hhalved, fun h => ?_⟩
  · cases (hendless.unique h).2
  · cases (hhasty.unique h).2
  · exact absurd (hhalved.unique h).1 (by decide)

end ProgressiveSearch.Exchange
