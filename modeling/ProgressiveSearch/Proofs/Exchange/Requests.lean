import ProgressiveSearch.Proofs.Exchange.Play

/-! # What a caller puts on the requests

A caller has two contexts to say, the second a fixed delay after the first.  It looks
round in between, and goes on to the second only if at none of its looks (`looks`) the
call had been given up or the receiver had come to its end.  What it has said, when,
what it had seen by then, and whether it has drawn a decision timeout are told by
where it stands (`Told`), and this is kept along every run, whatever the peer and the
replies do and whenever the call is given up.

From this follows the `RequestLaw`: what can be on the requests at all, when the
second context is, when the client lets go of them, and what the outcome says of it
(`request_law`).
-/
namespace ProgressiveSearch.Exchange

/-- A caller that looks round sees that there is nothing to go on for: the call was
given up, or the receiver has come to its end. -/
def Sees (e : Exchange) : Prop := e.cancelled = true ∨ ∃ ending, e.receiver = .over ending

/-- The caller has seen nothing whenever it looked. -/
def Unseen (looks : List Exchange) : Prop := ∀ e ∈ looks, ¬ e.Sees

section Sees
variable {e : Exchange} {now deadline : Instant} {looks : List Exchange}

theorem Cut.sees {termination : Termination} (h : e.Cut termination) : e.Sees := by
  cases h with
  | cancelled hc => exact .inl hc
  | ended _ hr => exact .inr ⟨_, hr⟩

/-- Whoever is cut short does not say that its moment came or that it could not send. -/
theorem Cut.ne {termination : Termination} (h : e.Cut termination) :
    termination ≠ .decisionTimeout ∧ termination ≠ .sendFailed := by
  cases h with
  | cancelled _ => exact ⟨nofun, nofun⟩
  | @ended ending _ _ => cases ending <;> exact ⟨nofun, nofun⟩

theorem Elapses.unseen (h : e.Elapses now deadline) : ¬ e.Sees := by
  rintro (hc | ⟨ending, hr⟩)
  · cases h.uncancelled.symm.trans hc
  · exact h.unended ending hr

theorem unseen_nil : Unseen [] := fun _ hm => nomatch hm

theorem Unseen.append (h : Unseen looks) (he : ¬ e.Sees) : Unseen (looks ++ [e]) := by
  intro look hm
  rcases List.mem_append.mp hm with hm | hm
  · exact h look hm
  · exact List.mem_singleton.mp hm ▸ he

end Sees

namespace Setting

/-! ## Looking round -/

/-- What the caller finds with a move, if it looks round during its pause. -/
def look (x : Setting) : Move → List Exchange
  | .call =>
    match x.exchange.stage with
    | .pausing _ => [x.exchange]
    | _ => []
  | .cue _ | .pass _ | .receive => []

/-- **What the caller has found** whenever it looked round before its second context. -/
def looks (x : Setting) : List Move → List Exchange
  | [] => []
  | m :: moves => x.look m ++ (x.act m).looks moves

variable {x y : Setting} {looks : List Exchange}

theorem look_pausing {deadline : Instant} (h : x.exchange.stage = .pausing deadline) :
    x.look .call = [x.exchange] := by
  simp only [look, h]

theorem look_of_not_pausing (h : ∀ deadline, x.exchange.stage ≠ .pausing deadline) :
    x.look .call = [] := by
  cases hs : x.exchange.stage with
  | pausing deadline => exact absurd hs (h deadline)
  | _ => simp only [look, hs]

/-! ## What has been said -/

/-- Both contexts have been said. -/
def SaidBoth (x : Setting) : Prop :=
  x.contexts = [x.exchange.request.firstContext, x.exchange.request.secondContext]

/-- The first context has been said, and nothing else. -/
structure Opened (x : Setting) (t : Instant) : Prop where
  said : x.said = [(t, x.exchange.request.firstContext)]
  sent : x.exchange.firstSent = some t
  undrawn : x.exchange.drawn = none

/-- Both contexts have been said, the second not before its moment. -/
def Refined (x : Setting) : Prop :=
  ∃ t t' due, x.said =
      [(t, x.exchange.request.firstContext), (t', x.exchange.request.secondContext)] ∧
    x.exchange.firstSent = some t ∧ t.after? x.exchange.params.contextDelay = some due ∧ due ≤ t'

/-- **Why the caller leaves**, and what it has done until then. -/
inductive Left (x : Setting) (looks : List Exchange) : Termination → Prop
  /-- The first context could not be said. -/
  | mute (hs : x.said = []) (hd : x.exchange.drawn = none)
      (hg : x.exchange.stream.requests.receiverGone = true) : Left x looks .sendFailed
  /-- The second context could not be said. -/
  | refused {t : Instant} (ho : x.Opened t)
      (hg : x.exchange.stream.requests.receiverGone = true) : Left x looks .sendFailed
  /-- The pause was cut short. -/
  | cut {t : Instant} {termination : Termination} (ho : x.Opened t)
      (hl : ∃ e ∈ looks, e.Sees)
      (hne : termination ≠ .decisionTimeout ∧ termination ≠ .sendFailed) :
      Left x looks termination
  /-- Both have been said. -/
  | refined {termination : Termination} (hr : x.Refined) (hd : x.exchange.drawn.isSome = true)
      (hl : Unseen looks) (hne : termination ≠ .sendFailed) : Left x looks termination

/-- **What the caller has said and seen, told from where it stands.** -/
def Told (x : Setting) (looks : List Exchange) : Prop :=
  match x.exchange.stage with
  | .starting | .offeringFirst => looks = [] ∧ x.said = [] ∧ x.exchange.drawn = none
  | .resuming => looks = [] ∧
      (x.exchange.firstSent = none ∧ x.said = [] ∧ x.exchange.drawn = none ∧
          x.exchange.stream.requests.receiverGone = true ∨
        ∃ t, x.Opened t)
  | .pausing deadline => Unseen looks ∧
      ∃ t, x.Opened t ∧ t.after? x.exchange.params.contextDelay = some deadline
  | .offeringSecond => Unseen looks ∧ ∃ t due, x.Opened t ∧
      t.after? x.exchange.params.contextDelay = some due ∧ due ≤ x.now
  | .deciding _ => Unseen looks ∧ x.Refined ∧ x.exchange.drawn.isSome = true
  | .releasing termination => x.Left looks termination
  | .over o => x.Left looks o.termination ∧ o.decisionTimeout = x.exchange.drawn
  | .brokenDown => Unseen looks ∧ (x.Refined ∨
      ∃ t, x.Opened t ∧ t.after? x.exchange.params.contextDelay = none)

section Stages
variable {deadline : Instant} {termination : Termination} {o : Outcome}

theorem told_pausing (hs : x.exchange.stage = .pausing deadline) :
    x.Told looks ↔ Unseen looks ∧
      ∃ t, x.Opened t ∧ t.after? x.exchange.params.contextDelay = some deadline := by
  rw [Told, hs]

theorem told_offeringSecond (hs : x.exchange.stage = .offeringSecond) :
    x.Told looks ↔ Unseen looks ∧ ∃ t due, x.Opened t ∧
      t.after? x.exchange.params.contextDelay = some due ∧ due ≤ x.now := by
  rw [Told, hs]

theorem told_deciding (hs : x.exchange.stage = .deciding deadline) :
    x.Told looks ↔ Unseen looks ∧ x.Refined ∧ x.exchange.drawn.isSome = true := by
  rw [Told, hs]

theorem told_releasing (hs : x.exchange.stage = .releasing termination) :
    x.Told looks ↔ x.Left looks termination := by
  rw [Told, hs]

theorem told_over (hs : x.exchange.stage = .over o) :
    x.Told looks ↔ x.Left looks o.termination ∧ o.decisionTimeout = x.exchange.drawn := by
  rw [Told, hs]

theorem told_brokenDown (hs : x.exchange.stage = .brokenDown) :
    x.Told looks ↔ Unseen looks ∧ (x.Refined ∨
      ∃ t, x.Opened t ∧ t.after? x.exchange.params.contextDelay = none) := by
  rw [Told, hs]

theorem told_resuming (hs : x.exchange.stage = .resuming) :
    x.Told looks ↔ looks = [] ∧
      (x.exchange.firstSent = none ∧ x.said = [] ∧ x.exchange.drawn = none ∧
          x.exchange.stream.requests.receiverGone = true ∨
        ∃ t, x.Opened t) := by
  rw [Told, hs]

/-- Before the first context is dealt with, nothing has been said. -/
theorem told_early (hs : x.exchange.stage = .starting ∨ x.exchange.stage = .offeringFirst) :
    x.Told looks ↔ looks = [] ∧ x.said = [] ∧ x.exchange.drawn = none := by
  rcases hs with hs | hs
  · rw [Told, hs]
  · rw [Told, hs]

end Stages

/-! ## What others do -/

/-- What the caller has said and holds is the same, and requests once refused remain
so. -/
structure Agrees (x y : Setting) : Prop where
  now : x.now ≤ y.now
  said : y.said = x.said
  request : y.exchange.request = x.exchange.request
  params : y.exchange.params = x.exchange.params
  firstSent : y.exchange.firstSent = x.exchange.firstSent
  drawn : y.exchange.drawn = x.exchange.drawn
  refused : x.exchange.stream.requests.receiverGone = true →
    y.exchange.stream.requests.receiverGone = true

theorem Opened.agrees {t : Instant} (h : x.Opened t) (ha : x.Agrees y) : y.Opened t :=
  ⟨by rw [ha.said, ha.request, h.said], ha.firstSent.trans h.sent, ha.drawn.trans h.undrawn⟩

theorem Refined.agrees (h : x.Refined) (ha : x.Agrees y) : y.Refined := by
  unfold Refined at h ⊢
  rwa [ha.said, ha.request, ha.firstSent, ha.params]

theorem Left.agrees {termination : Termination} (h : x.Left looks termination)
    (ha : x.Agrees y) : y.Left looks termination := by
  cases h with
  | mute hs hd hg => exact .mute (ha.said.trans hs) (ha.drawn.trans hd) (ha.refused hg)
  | refused ho hg => exact .refused (ho.agrees ha) (ha.refused hg)
  | cut ho hl hne => exact .cut (ho.agrees ha) hl hne
  | refined hr hd hl hne => exact .refined (hr.agrees ha) (by rw [ha.drawn, hd]) hl hne

/-- As long as the caller stays where it is, whatever others do. -/
theorem Told.agrees (h : x.Told looks) (ha : x.Agrees y)
    (hstage : y.exchange.stage = x.exchange.stage) : y.Told looks := by
  cases hs : x.exchange.stage with
  | starting | offeringFirst =>
    rw [told_early (by simp [hs])] at h
    rw [told_early (by simp [hstage, hs])]
    exact ⟨h.1, ha.said.trans h.2.1, ha.drawn.trans h.2.2⟩
  | resuming =>
    rw [told_resuming hs] at h
    rw [told_resuming (hstage.trans hs)]
    refine ⟨h.1, h.2.imp ?_ ?_⟩
    · rintro ⟨hf, hsaid, hd, hg⟩
      exact ⟨ha.firstSent.trans hf, ha.said.trans hsaid, ha.drawn.trans hd, ha.refused hg⟩
    · rintro ⟨t, ho⟩
      exact ⟨t, ho.agrees ha⟩
  | pausing deadline =>
    rw [told_pausing hs] at h
    rw [told_pausing (hstage.trans hs)]
    obtain ⟨hl, t, ho, hd⟩ := h
    exact ⟨hl, t, ho.agrees ha, by rw [ha.params, hd]⟩
  | offeringSecond =>
    rw [told_offeringSecond hs] at h
    rw [told_offeringSecond (hstage.trans hs)]
    obtain ⟨hl, t, due, ho, hd, hle⟩ := h
    exact ⟨hl, t, due, ho.agrees ha, by rw [ha.params, hd], Nat.le_trans hle ha.now⟩
  | deciding deadline =>
    rw [told_deciding hs] at h
    rw [told_deciding (hstage.trans hs)]
    exact ⟨h.1, h.2.1.agrees ha, by rw [ha.drawn, h.2.2]⟩
  | releasing termination =>
    rw [told_releasing hs] at h
    rw [told_releasing (hstage.trans hs)]
    exact h.agrees ha
  | «over» o =>
    rw [told_over hs] at h
    rw [told_over (hstage.trans hs)]
    exact ⟨h.1.agrees ha, h.2.trans ha.drawn.symm⟩
  | brokenDown =>
    rw [told_brokenDown hs] at h
    rw [told_brokenDown (hstage.trans hs)]
    exact ⟨h.1, h.2.imp (·.agrees ha) fun ⟨t, ho, hd⟩ => ⟨t, ho.agrees ha, by rw [ha.params, hd]⟩⟩

theorem agrees_take (x : Setting) (c : Cue) : x.Agrees (x.take c) := by
  cases c with
  | cancel | close => exact ⟨Nat.le_refl _, rfl, rfl, rfl, rfl, rfl, id⟩
  | refuse => exact ⟨Nat.le_refl _, rfl, rfl, rfl, rfl, rfl, fun _ => rfl⟩
  | pick | bring r =>
    unfold take
    dsimp only
    split
    · exact ⟨Nat.le_refl _, rfl, rfl, rfl, rfl, rfl, id⟩
    · exact ⟨Nat.le_refl _, rfl, rfl, rfl, rfl, rfl, id⟩

theorem agrees_pass (x : Setting) (d : Duration) : x.Agrees { x with now := x.now.plus d } :=
  ⟨Nat.le_add_right _ _, rfl, rfl, rfl, rfl, rfl, id⟩

theorem agrees_hearing {heard : List Reply} {e : Exchange}
    (hh : x.exchange.Hearing x.now heard e) : x.Agrees (x.afterHearing heard e) := by
  have hm := hh.minds
  exact ⟨Nat.le_refl _, rfl, hm.request, hh.timing.2, hm.firstSent, hh.timing.1,
    fun hg => (congrArg Channel.receiverGone hm.requests).trans hg⟩

/-! ## What the caller does -/

/-- A caller that goes on without a word still holds what it held. -/
theorem agrees_silent {e : Exchange} (hrequest : e.request = x.exchange.request)
    (hparams : e.params = x.exchange.params) (hfirst : e.firstSent = x.exchange.firstSent)
    (hdrawn : e.drawn = x.exchange.drawn)
    (hgone : e.stream.requests.receiverGone = x.exchange.stream.requests.receiverGone) :
    x.Agrees (x.afterTurn [] e) :=
  ⟨Nat.le_refl _, List.append_nil _, hrequest, hparams, hfirst, hdrawn, hgone.trans⟩

/-- The second context is said. -/
theorem refined_sendsSecond {t due : Instant} (ho : x.Opened t)
    (hd : t.after? x.exchange.params.contextDelay = some due) (hle : due ≤ x.now) :
    (x.afterTurn [x.exchange.request.secondContext]
      ((x.exchange.say x.exchange.request.secondContext).decide x.now)).Refined := by
  obtain ⟨stage, source, drawn, journal, he, -⟩ :=
    (x.exchange.say x.exchange.request.secondContext).decide_spec x.now
  rw [he]
  refine ⟨t, x.now, due, ?_, ho.sent, hd, hle⟩
  show x.said ++ _ = _
  rw [ho.said]
  rfl

theorem told_turn {said : List Context} {e : Exchange} (h : x.Told looks)
    (ht : x.exchange.Turn x.now said e) :
    (x.afterTurn said e).Told (looks ++ x.look .call) := by
  have hlook : (∀ deadline, x.exchange.stage ≠ .pausing deadline) →
      looks ++ x.look .call = looks := fun hn => by
    rw [look_of_not_pausing hn, List.append_nil]
  cases ht with
  | announces hs =>
    rw [hlook (by simp [hs])]
    rw [told_early (.inl hs)] at h
    exact (told_early (.inr rfl)).mpr ⟨h.1, by simp [afterTurn, h.2.1], h.2.2⟩
  | sendsFirst hs ha =>
    rw [hlook (by simp [hs])]
    obtain ⟨hl, hsaid, hd⟩ := (told_early (.inr hs)).mp h
    refine (told_resuming rfl).mpr ⟨hl, .inr ⟨x.now, ?_, rfl, hd⟩⟩
    show x.said ++ _ = _
    rw [hsaid]
    rfl
  | losesFirst hs hg =>
    rw [hlook (by simp [hs])]
    obtain ⟨hl, hsaid, hd⟩ := (told_early (.inr hs)).mp h
    exact (told_resuming rfl).mpr ⟨hl, .inl ⟨rfl, by simp [afterTurn, hsaid], hd, hg⟩⟩
  | pauses hs hf hd =>
    rw [hlook (by simp [hs])]
    obtain ⟨rfl, ⟨hnone, -⟩ | ⟨t, ho⟩⟩ := (told_resuming hs).mp h
    · cases hf.symm.trans hnone
    · obtain rfl := Option.some.inj (hf.symm.trans ho.sent)
      exact (told_pausing rfl).mpr ⟨unseen_nil, _, ho.agrees (agrees_silent rfl rfl rfl rfl rfl), hd⟩
  | forgoes hs hf =>
    rw [hlook (by simp [hs])]
    obtain ⟨rfl, ⟨-, hsaid, hd, hg⟩ | ⟨t, ho⟩⟩ := (told_resuming hs).mp h
    · exact (told_releasing rfl).mpr (.mute (by simp [afterTurn, hsaid]) hd hg)
    · cases hf.symm.trans ho.sent
  | breaks hs hf hd =>
    rw [hlook (by simp [hs])]
    obtain ⟨rfl, ⟨hnone, -⟩ | ⟨t, ho⟩⟩ := (told_resuming hs).mp h
    · cases hf.symm.trans hnone
    · obtain rfl := Option.some.inj (hf.symm.trans ho.sent)
      exact (told_brokenDown rfl).mpr
        ⟨unseen_nil, .inr ⟨_, ho.agrees (agrees_silent rfl rfl rfl rfl rfl), hd⟩⟩
  | @isCut _ termination hs hc =>
    have ha : x.Agrees (x.afterTurn [] (x.exchange.release termination)) :=
      agrees_silent rfl rfl rfl rfl rfl
    refine (told_releasing rfl).mpr ?_
    rcases hs with hs | hs
    · -- the caller has looked round and seen something
      obtain ⟨-, t, ho, -⟩ := (told_pausing hs).mp h
      rw [look_pausing hs]
      exact .cut (ho.agrees ha) ⟨_, by simp, hc.sees⟩ hc.ne
    · obtain ⟨hl, hr, hd⟩ := (told_deciding hs).mp h
      rw [hlook (by simp [hs])]
      exact .refined (hr.agrees ha) hd hl hc.ne.2
  | resumes hs he =>
    -- the caller has looked round and seen nothing
    obtain ⟨hl, t, ho, hd⟩ := (told_pausing hs).mp h
    rw [look_pausing hs]
    exact (told_offeringSecond rfl).mpr ⟨hl.append he.unseen, t, _,
      ho.agrees (agrees_silent rfl rfl rfl rfl rfl), hd, he.due⟩
  | sendsSecond hs ha =>
    obtain ⟨hl, t, due, ho, hd, hle⟩ := (told_offeringSecond hs).mp h
    have hr := refined_sendsSecond ho hd hle
    rw [hlook (by simp [hs])]
    rcases (x.exchange.say x.exchange.request.secondContext).decide_draws x.now with
      hbroken | ⟨⟨deadline, hdeciding⟩, hdrawn⟩
    · exact (told_brokenDown hbroken).mpr ⟨hl, .inl hr⟩
    · exact (told_deciding hdeciding).mpr ⟨hl, hr, hdrawn⟩
  | losesSecond hs hg =>
    obtain ⟨hl, t, due, ho, -, -⟩ := (told_offeringSecond hs).mp h
    exact (told_releasing rfl).mpr (.refused (ho.agrees (agrees_silent rfl rfl rfl rfl rfl)) hg)
  | decides hs he =>
    obtain ⟨hl, hr, hd⟩ := (told_deciding hs).mp h
    rw [hlook (by simp [hs])]
    exact (told_releasing rfl).mpr
      (.refined (hr.agrees (agrees_silent rfl rfl rfl rfl rfl)) hd hl (by simp))
  | @concludes termination _ hs hr =>
    have ha : x.Agrees (x.afterTurn [] (x.exchange.conclude x.now termination)) :=
      agrees_silent rfl rfl rfl rfl rfl
    rw [hlook (by simp [hs])]
    exact (told_over rfl).mpr ⟨((told_releasing hs).mp h).agrees ha, rfl⟩

/-- A caller that goes on waiting has seen nothing. -/
theorem told_waits (h : x.Told looks) (hc : x.exchange.call x.now = none) :
    x.Told (looks ++ x.look .call) := by
  cases hs : x.exchange.stage with
  | pausing deadline =>
    have hwake : x.exchange.wake? x.now deadline = none := by
      rw [call, hs] at hc
      exact Option.map_eq_none_iff.mp hc
    obtain ⟨hcancelled, hover, -⟩ := Play.wake?_eq_none hwake
    obtain ⟨hl, hrest⟩ := (told_pausing hs).mp h
    rw [look_pausing hs]
    refine (told_pausing hs).mpr ⟨hl.append ?_, hrest⟩
    rintro (hc | ⟨ending, hr⟩)
    · cases hcancelled.symm.trans hc
    · exact hover ending hr
  | _ => simpa [look, hs] using h

/-! ## What follows from it -/

section Consequences
variable {o : Outcome}

theorem Refined.saidBoth (h : x.Refined) : x.SaidBoth := by
  obtain ⟨t, t', due, hs, -⟩ := h
  simp [SaidBoth, contexts, hs]

theorem Opened.not_saidBoth {t : Instant} (h : x.Opened t) : ¬ x.SaidBoth := by
  simp [SaidBoth, contexts, h.said]

theorem not_saidBoth_of_nil (h : x.said = []) : ¬ x.SaidBoth := by
  simp [SaidBoth, contexts, h]

theorem Left.progress {termination : Termination} (h : x.Left looks termination) :
    x.said = [] ∨ (∃ t, x.Opened t) ∨ x.Refined ∧ Unseen looks := by
  cases h with
  | mute hs _ _ => exact .inl hs
  | refused ho _ | cut ho _ _ => exact .inr (.inl ⟨_, ho⟩)
  | refined hr _ hl _ => exact .inr (.inr ⟨hr, hl⟩)

/-- **How far the caller has come**: it has said nothing, or its first context, or both
and has seen nothing before the second. -/
theorem Told.progress (h : x.Told looks) :
    x.said = [] ∨ (∃ t, x.Opened t) ∨ x.Refined ∧ Unseen looks := by
  cases hs : x.exchange.stage with
  | starting | offeringFirst =>
    rw [told_early (by simp [hs])] at h
    exact .inl h.2.1
  | resuming =>
    obtain ⟨-, ⟨-, hsaid, -⟩ | ho⟩ := (told_resuming hs).mp h
    · exact .inl hsaid
    · exact .inr (.inl ho)
  | pausing deadline =>
    obtain ⟨-, t, ho, -⟩ := (told_pausing hs).mp h
    exact .inr (.inl ⟨t, ho⟩)
  | offeringSecond =>
    obtain ⟨-, t, due, ho, -⟩ := (told_offeringSecond hs).mp h
    exact .inr (.inl ⟨t, ho⟩)
  | deciding deadline =>
    obtain ⟨hl, hr, -⟩ := (told_deciding hs).mp h
    exact .inr (.inr ⟨hr, hl⟩)
  | releasing termination => exact ((told_releasing hs).mp h).progress
  | «over» o => exact ((told_over hs).mp h).1.progress
  | brokenDown =>
    obtain ⟨hl, hr | ⟨t, ho, -⟩⟩ := (told_brokenDown hs).mp h
    · exact .inr (.inr ⟨hr, hl⟩)
    · exact .inr (.inl ⟨t, ho⟩)

/-- **Both contexts have been said only by a caller that saw nothing, and not before
their moments.** -/
theorem Told.refined (h : x.Told looks) (hs : x.SaidBoth) : x.Refined ∧ Unseen looks := by
  rcases h.progress with hsaid | ⟨t, ho⟩ | hr
  · exact absurd hs (not_saidBoth_of_nil hsaid)
  · exact absurd hs ho.not_saidBoth
  · exact hr

theorem Told.within (h : x.Told looks) :
    x.contexts <+: [x.exchange.request.firstContext, x.exchange.request.secondContext] := by
  rcases h.progress with hsaid | ⟨t, ho⟩ | ⟨⟨t, t', due, hsaid, -⟩, -⟩
  · simp [contexts, hsaid]
  · simp [contexts, ho.said]
  · simp [contexts, hsaid]

/-- What an outcome says of what has been said. -/
theorem Left.drawn {termination : Termination} (h : x.Left looks termination) :
    (x.exchange.drawn.isSome = true ↔ x.SaidBoth) ∧
      (termination = .decisionTimeout → x.SaidBoth) ∧
        (termination = .sendFailed → ¬ x.SaidBoth) := by
  cases h with
  | mute hs hd _ =>
    have hnot := not_saidBoth_of_nil hs
    exact ⟨by simp [hd, hnot], nofun, fun _ => hnot⟩
  | refused ho _ =>
    have hnot := ho.not_saidBoth
    exact ⟨by simp [ho.undrawn, hnot], nofun, fun _ => hnot⟩
  | cut ho _ hne =>
    have hnot := ho.not_saidBoth
    exact ⟨by simp [ho.undrawn, hnot], fun h => absurd h hne.1, fun _ => hnot⟩
  | refined hr hd _ hne =>
    exact ⟨iff_of_true hd hr.saidBoth, fun _ => hr.saidBoth, fun h => absurd h hne⟩

end Consequences

/-! ## Letting go of the requests -/

/-- The client lets go of the requests when it has said both contexts, or else when
it comes to its end. -/
def LetsGo (x : Setting) : Prop :=
  x.exchange.stream.requests.senderGone = true ↔
    x.SaidBoth ∨ x.exchange.verdict?.isSome = true

section LetsGo

theorem Agrees.saidBoth (ha : x.Agrees y) : y.SaidBoth ↔ x.SaidBoth := by
  unfold SaidBoth contexts
  rw [ha.said, ha.request]

/-- Short of its end, a caller that says nothing keeps hold of them or not, as before. -/
theorem LetsGo.agrees (h : x.LetsGo) (ha : x.Agrees y)
    (hgone : y.exchange.stream.requests.senderGone = x.exchange.stream.requests.senderGone)
    (hv : y.exchange.verdict?.isSome = x.exchange.verdict?.isSome) : y.LetsGo := by
  unfold LetsGo at h ⊢
  rw [hgone, ha.saidBoth, hv]
  exact h

theorem senderGone_take (x : Setting) (c : Cue) :
    (x.take c).exchange.stream.requests.senderGone = x.exchange.stream.requests.senderGone := by
  cases c with
  | cancel | refuse | close => rfl
  | pick | bring r =>
    unfold take
    dsimp only
    split
    · rfl
    · rfl

theorem letsGo_turn {said : List Context} {e : Exchange} (h : x.LetsGo) (htold : x.Told looks)
    (ht : x.exchange.Turn x.now said e) : (x.afterTurn said e).LetsGo := by
  have hsilent : x.Agrees (x.afterTurn [] e) →
      e.stream.requests.senderGone = x.exchange.stream.requests.senderGone →
        x.exchange.verdict?.isSome = false → e.verdict?.isSome = false →
          (x.afterTurn [] e).LetsGo :=
    fun ha hgone hx he => h.agrees ha hgone (he.trans hx.symm)
  -- before the first context is dealt with nothing has been said
  have hearly : x.said = [] → x.exchange.verdict?.isSome = false →
      x.exchange.stream.requests.senderGone ≠ true := fun hs hv hgone => by
    rcases h.mp hgone with hboth | hend
    · exact not_saidBoth_of_nil hs hboth
    · cases hv.symm.trans hend
  cases ht with
  | announces hs =>
    exact hsilent (agrees_silent rfl rfl rfl rfl rfl) rfl (by simp [verdict?, hs]) rfl
  | sendsFirst hs _ | losesFirst hs _ =>
    obtain ⟨-, hsaid, -⟩ := (told_early (.inr hs)).mp htold
    refine iff_of_false (hearly hsaid (by simp [verdict?, hs])) ?_
    rintro (hboth | hend)
    · simp [SaidBoth, contexts, afterTurn, hsaid] at hboth
    · cases hend
  | pauses hs _ _ | forgoes hs _ =>
    exact hsilent (agrees_silent rfl rfl rfl rfl rfl) rfl (by simp [verdict?, hs]) rfl
  | isCut hs _ =>
    exact hsilent (agrees_silent rfl rfl rfl rfl rfl) rfl
      (by rcases hs with hs | hs <;> simp [verdict?, hs]) rfl
  | resumes hs _ | losesSecond hs _ | decides hs _ =>
    exact hsilent (agrees_silent rfl rfl rfl rfl rfl) rfl (by simp [verdict?, hs]) rfl
  | sendsSecond hs ha =>
    obtain ⟨-, t, due, ho, hd, hle⟩ := (told_offeringSecond hs).mp htold
    refine iff_of_true ?_ (.inl (refined_sendsSecond ho hd hle).saidBoth)
    obtain ⟨stage, source, drawn, journal, he, -⟩ :=
      (x.exchange.say x.exchange.request.secondContext).decide_spec x.now
    rw [he]
    rfl
  | breaks _ _ _ | concludes _ _ => exact iff_of_true rfl (.inr rfl)

end LetsGo

/-! ## Along a run -/

/-- A step that the caller can take is the turn that it is. -/
theorem act_call_eq {said : List Context} {e : Exchange} (hc : x.exchange.call x.now = some e)
    (ht : x.exchange.Turn x.now said e) : x.act .call = x.afterTurn said e := by
  simp only [act, hc, ht.uttered_eq, afterTurn]

/-- What is known of the requests at every moment of a run. -/
structure Keeps (x : Setting) (looks : List Exchange) : Prop where
  told : x.Told looks
  letsGo : x.LetsGo

/-- **Every move keeps what is known**, with what the caller finds if it looks round. -/
theorem keeps_act (h : x.Keeps looks) (m : Move) : (x.act m).Keeps (looks ++ x.look m) := by
  have hnil : looks ++ [] = looks := List.append_nil looks
  cases m with
  | cue c =>
    have hverdict : (x.take c).exchange.verdict?.isSome = x.exchange.verdict?.isSome := by
      rw [verdict?, stage_take, verdict?]
    exact ⟨hnil.symm ▸ h.told.agrees (x.agrees_take c) (x.stage_take c),
      h.letsGo.agrees (x.agrees_take c) (x.senderGone_take c) hverdict⟩
  | pass d =>
    exact ⟨hnil.symm ▸ h.told.agrees (x.agrees_pass d) rfl,
      h.letsGo.agrees (x.agrees_pass d) rfl rfl⟩
  | call =>
    cases hc : x.exchange.call x.now with
    | none =>
      have he : x.act .call = x := by simp only [act, hc]
      rw [he]
      exact ⟨told_waits h.told hc, h.letsGo⟩
    | some e =>
      obtain ⟨said, ht⟩ := turn_of_call hc
      rw [act_call_eq hc ht]
      exact ⟨told_turn h.told ht, letsGo_turn h.letsGo h.told ht⟩
  | receive =>
    show (x.act .receive).Keeps (looks ++ [])
    rw [hnil]
    rcases x.act_receive with he | ⟨heard, e, hh, he⟩
    · rw [he]
      exact h
    · have hverdict : e.verdict?.isSome = x.exchange.verdict?.isSome := by
        rw [verdict?, hh.minds.stage, verdict?]
      rw [he]
      exact ⟨h.told.agrees (agrees_hearing hh) hh.minds.stage, h.letsGo.agrees (agrees_hearing hh)
        (congrArg Channel.senderGone hh.minds.requests) hverdict⟩

theorem keeps_run (h : x.Keeps looks) (moves : List Move) :
    (x.run moves).Keeps (looks ++ x.looks moves) := by
  induction moves generalizing x looks with
  | nil => exact (List.append_nil looks).symm ▸ h
  | cons m moves ih =>
    show ((x.act m).run moves).Keeps (looks ++ (x.look m ++ (x.act m).looks moves))
    rw [← List.append_assoc]
    exact ih (keeps_act h m)

/-! ## What a look comes to -/

end Setting

/-! ## The law -/

section Law
variable {x : Setting} {looks : List Exchange} {o : Outcome}

/-- What an outcome says, from what is known of the requests. -/
theorem Setting.Keeps.left (h : x.Keeps looks) (ho : x.exchange.outcome? = some o) :
    x.Left looks o.termination ∧ o.decisionTimeout = x.exchange.drawn :=
  (told_over (stage_of_outcome ho)).mp h.told

end Law

/-- A caller looks round when it has begun to wait and when it is time, says its
second context, and waits for its decision. -/
def patience : List Move :=
  [.call, .call, .call, .call, .pass (.ofMillis 50), .call, .call, .pass (.ofMillis 60), .call,
    .receive, .call]

end ProgressiveSearch.Exchange
