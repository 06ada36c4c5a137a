import ProgressiveSearch.Proofs.Conversation.Timetable

/-! # Whatever happens, happens on time

Both sides of an undisturbed call keep to its timetable (`timed_advance`).  Most of what
might happen to a session or an exchange cannot happen here, and each time for a
reason that the other side has given: the session hears no half-close before the
second context because the caller has not let go of the requests, and the caller does
not find them refused because the session is still waiting.
-/
namespace ProgressiveSearch
namespace Timetable
open Conversation

variable {tt : Timetable} {ranker : Ranker} {request : Request} {x : Conversation}

/-! ## The session -/

section Serves
variable {e : Session.Deeds} {s : Session}

/-- A session that has lost its reader has been stopped by the decision. -/
theorem Timed.stopped (hw : x.Wired) (h : tt.Timed x) (ho : ¬ x.Served)
    (hg : x.scene.session.stream.replies.receiverGone = true) :
    x.setting.exchange.receiver = .over .stopped ∧ tt.second < tt.idle ∧
      tt.decision < tt.final := by
  obtain ⟨ending, hr⟩ := hw.deserted hg
  cases ending with
  | completed =>
    obtain ⟨⟨report, hover⟩, -⟩ := h.of_completed hr
    exact absurd ⟨_, hover⟩ ho
  | stopped =>
    obtain ⟨hearly, hfirst, -⟩ := h.of_stopped hr
    exact ⟨hr, hearly, hfirst⟩
  | failed code => exact absurd hr (h.not_failed code)

theorem Timed.ends_deserted (hs : tt.Sound ranker request x) (hw : x.Wired) (h : tt.Timed x)
    (ho : ¬ x.Served) (hg : x.scene.session.stream.replies.receiverGone = true)
    (failure : Failure) :
    tt.Ends x.scene.now x.scene.history x.setting.exchange.receiver (.failed failure) := by
  obtain ⟨hr, hearly, hfirst⟩ := h.stopped hw ho hg
  obtain ⟨hasked, hwritten⟩ := h.undeferred hs hearly hfirst
  exact .deserted hr hwritten hasked

/-- A session hears of no half-close while it awaits a context. -/
theorem Timed.not_closesEarly (hs : tt.Sound ranker request x) (hw : x.Wired) (h : tt.Timed x)
    (ha : x.scene.session.activity = .selecting)
    (hq : x.scene.session.stream.requests.queue = [])
    (hg : x.scene.session.stream.requests.senderGone = true)
    (hp : x.scene.session.phase.awaitsContext = true) : False := by
  have ho : ¬ x.Served := by
    rintro ⟨r, hr⟩
    cases ha.symm.trans hr
  obtain ⟨hclosed, hempty⟩ := isExhausted_iff.mp (hw.halfClosed ho hg)
  -- both contexts were said, picked up and read, and that is more than it has read
  have hsaid := h.said_both hs hw ho hclosed
  have hpicked := hs.orderly.handed.waiting (hw.unrefused ho)
  have hread := hw.carried ho
  have hnone : ∀ {requests : Channel Arrival}, requests.queue = [] → requests.waiting = [] := by
    intro requests hq
    simp [Channel.waiting, hq]
  rw [hnone hempty, List.append_nil] at hpicked
  rw [hnone hq, List.append_nil, hpicked] at hread
  rcases Session.told_awaits hs.told ha hp with ⟨-, hlen, -⟩ | ⟨-, hlen, -⟩
  · rw [hread] at hlen
    omega
  · rw [hread] at hlen
    omega

/-- There is no third context to read. -/
theorem not_third (hs' : tt.Sound ranker request ⟨x.scene.after e s, x.setting⟩)
    (htwo : 2 ≤ x.scene.history.contexts.length) : e.reads = [] := by
  have hlen : (x.scene.after e s).history.contexts.length =
      x.scene.history.contexts.length + e.reads.length := by
    rw [← List.length_append]
    exact congrArg List.length Session.History.contexts_add
  have hle : (x.scene.after e s).history.contexts.length ≤ 2 :=
    Nat.le_trans hs'.read.1 hs'.read.2
  refine List.eq_nil_of_length_eq_zero ?_
  omega

/-- **The ways out of a session that are left**, and that it puts no status on its
replies. -/
theorem Timed.ends_exit (hs : tt.Sound ranker request x) (hw : x.Wired) (h : tt.Timed x)
    (hs' : tt.Sound ranker request ⟨x.scene.after e s, x.setting⟩) {r : Session.Result}
    (he : x.scene.session.Exit x.scene.now x.scene.stopping e r) :
    tt.Ends x.scene.now (x.scene.history.add x.scene.now e) x.setting.exchange.receiver r ∧
      ∀ reply ∈ e.puts, ∃ b, reply = .batch b := by
  have ho : ¬ x.Served := not_served_iff.mpr he.not_over
  have hserves := h.serves
  have htold := hs.told
  have hread := hs.read
  unfold Serves at hserves
  cases he with
  | breaksAtStart he ht =>
    obtain ⟨hp, -⟩ := Session.told_entering htold he
    simp only [hp, he] at hserves
    rw [hserves, hs.config, tt.idleAt] at ht
    cases ht
  | stops _ ht => cases hw.scene.serving.symm.trans ht
  | deserted _ _ hr =>
    rw [Session.History.add_none]
    exact ⟨h.ends_deserted hs hw ho hr _, nofun⟩
  | unarmed ha hp _ hc =>
    obtain ⟨_, _, _, _, _, -, hlast, -⟩ := Session.told_final htold ha.selecting (by rw [hp]; rfl)
    cases hc.symm.trans hlast
  | idles ha hp hd =>
    rw [Session.History.add_none]
    refine ⟨?_, nofun⟩
    rcases Session.told_awaits htold ha.selecting hp with ⟨hphase, -, -⟩ | ⟨hphase, hone, hwritten⟩
    · simp only [hphase, ha.selecting] at hserves
      rw [hserves.2, hserves.1] at hd
      exact absurd tt.start_lt_idle (Nat.not_lt.mpr hd)
    · simp only [hphase, ha.selecting] at hserves
      obtain ⟨hidle, hsecond, hbefore⟩ := hserves
      rw [hidle] at hd
      have hnow : x.scene.now = tt.idle := Instant.le_antisymm hbefore hd
      have hlate : tt.idle < tt.second :=
        Instant.lt_of_le_of_ne (hnow ▸ hsecond) tt.second_ne_idle.symm
      exact .idles hlate hnow hwritten hone
  | rejects hl _ hp _ =>
    cases not_third hs' (Session.told_two htold hl.selecting hp)
  | @breaks status _ _ hq =>
    refine absurd ?_ (hw.scene.plain (not_served_iff.mp ho) status)
    rw [hq]
    exact List.mem_cons_self
  | closesEarly hl hq hg hp => exact (h.not_closesEarly hs hw hl.selecting hq hg hp).elim
  | loses hd hr =>
    rw [Session.History.add_none]
    exact ⟨h.ends_deserted hs hw ho hr _, nofun⟩
  | unnameable hd ht =>
    rcases ht with ⟨hp, ht⟩ | ⟨hp, ht⟩
    · simp only [hp, hd.delivering] at hserves
      rw [hserves.2, hs.config, tt.idleAt] at ht
      cases ht
    · simp only [hp, hd.delivering] at hserves
      rw [hserves.2.2, hs.config, tt.finalAt hserves.1] at ht
      cases ht
  | @completes d hd hp =>
    refine ⟨?_, fun reply hm => ⟨d.batch, List.mem_singleton.mp hm⟩⟩
    unfold Session.Told at htold
    cases hphase : x.scene.session.phase with
    | awaitingFirst | awaitingSecond => simp [hphase, Session.Phase.awaitsContext] at hp
    | closed => simp [hphase, hd.delivering] at hserves
    | awaitingFinal deadline =>
      simp only [hphase, hd.delivering] at hserves htold
      obtain ⟨hearly, hnow, hfirst⟩ := hserves
      obtain ⟨⟨_, _, _, rest, hi, -⟩, -⟩ := htold
      have htwo : 2 ≤ x.scene.history.contexts.length := by simp [hi.contexts]
      have hwritten : x.scene.history.written.length = 2 := by simp [hi.written]
      refine .completes hearly hfirst hnow ?_ ?_
      · rw [Session.History.written_add, List.length_append, hwritten]
        rfl
      · rw [Session.History.contexts_add, List.length_append]
        simp only [List.length_nil]
        omega

/-- The second context is answered as soon as it is due. -/
theorem Timed.second_due (hs : tt.Sound ranker request x) (hw : x.Wired) (h : tt.Timed x)
    (hs' : tt.Sound ranker request ⟨x.scene.after e s, x.setting⟩)
    (hread : (x.scene.history.contexts ++ e.reads).length = 2) (hle : x.scene.now ≤ tt.second) :
    tt.second < tt.idle ∧ x.scene.now = tt.second := by
  have hread' : (x.scene.after e s).history.contexts.length = 2 := by
    rw [← hread]
    exact congrArg List.length Session.History.contexts_add
  have hsaid : x.setting.contexts.length = 2 := by
    have hle := hs'.read.1
    have hle' := hs'.read.2
    exact Nat.le_antisymm hle' (hread' ▸ hle)
  obtain ⟨hearly, hsince⟩ := h.said hs hsaid
  rw [hw.clocks] at hsince
  exact ⟨hearly, Instant.le_antisymm hle hsince⟩

/-- What the session does leaves the receiver where it stands. -/
theorem hears_serves (h : tt.Timed x) (ho : ¬ x.Served) (e : Session.Deeds) (s : Session) :
    tt.Hears ⟨x.scene.after e s, x.setting⟩ := by
  unfold Hears
  dsimp only
  split
  · trivial
  · trivial
  · rename_i hr
    obtain ⟨⟨report, hover⟩, -⟩ := h.of_completed hr
    exact absurd ⟨_, hover⟩ ho
  · rename_i hr
    exact h.of_stopped hr
  · rename_i code hr
    exact h.not_failed code hr

/-- What the session does it does on time, and it queues nothing but batches. -/
theorem serves_transition (hs : tt.Sound ranker request x) (hw : x.Wired) (h : tt.Timed x)
    (hs' : tt.Sound ranker request ⟨x.scene.after e s, x.setting⟩)
    (ht : x.scene.session.Transition x.scene.now x.scene.stopping e s) :
    tt.Serves (x.scene.after e s) x.setting.exchange.receiver ∧
      ∀ reply ∈ e.puts, ∃ b, reply = .batch b := by
  have hserves := h.serves
  have htold := hs.told
  have hsilent : ∀ reply ∈ ([] : List Reply), ∃ b, reply = .batch b := fun _ hm =>
    absurd hm List.not_mem_nil
  unfold Serves at hserves ⊢
  cases ht with
  | begins he ht =>
    refine ⟨?_, hsilent⟩
    obtain ⟨hp, -⟩ := Session.told_entering htold he
    simp only [hp, he, Session.Scene.after] at hserves ⊢
    rw [hserves, hs.config, tt.idleAt] at ht
    exact ⟨hserves, (Option.some.inj ht).symm⟩
  | @answers c _ hl _ hp =>
    refine ⟨?_, hsilent⟩
    rcases Session.told_awaits htold hl.selecting hp with ⟨hphase, -, -⟩ | ⟨hphase, hone, -⟩
    · simp only [hphase, hl.selecting, Session.Scene.after] at hserves ⊢
      exact ⟨hserves.1, hserves.1⟩
    · simp only [hphase, hl.selecting, Session.Scene.after] at hserves ⊢
      obtain ⟨hearly, hnow⟩ := h.second_due hs hw hs' (by simp [hone]) hserves.2.1
      exact ⟨hearly, hnow, hnow⟩
  | @defers c deadline ha hp hd _ =>
    refine ⟨?_, hsilent⟩
    simp only [hp, ha.selecting, Session.Scene.after] at hserves ⊢
    obtain ⟨hearly, rfl, hdecision, hfinal⟩ := hserves
    have hnow : x.scene.now = tt.final := Instant.le_antisymm hfinal hd
    exact ⟨hearly, hnow,
      Instant.lt_of_le_of_ne (hnow ▸ hdecision) (tt.decision_ne_final hearly).symm⟩
  | ignores hl _ hp _ =>
    cases not_third hs' (Session.told_two htold hl.selecting hp)
  | halfCloses hl _ _ hp =>
    refine ⟨?_, hsilent⟩
    obtain ⟨_, _, _, _, _, -, -, hphase⟩ := Session.told_final htold hl.selecting hp
    simp only [hphase, hl.selecting, Session.Scene.after] at hserves ⊢
    exact hserves
  | deliversFirst hd hp ht =>
    refine ⟨?_, fun reply hm => ⟨_, List.mem_singleton.mp hm⟩⟩
    simp only [hp, hd.delivering, Session.Scene.after] at hserves ⊢
    rw [hserves.2, hs.config, tt.idleAt] at ht
    rw [hserves.1]
    exact ⟨(Option.some.inj ht).symm, tt.start_le_second, Nat.le_of_lt tt.start_lt_idle⟩
  | deliversSecond hd hp ht =>
    refine ⟨?_, fun reply hm => ⟨_, List.mem_singleton.mp hm⟩⟩
    simp only [hp, hd.delivering, Session.Scene.after] at hserves ⊢
    obtain ⟨hearly, hnow, hreceived⟩ := hserves
    rw [hreceived, hs.config, tt.finalAt hearly] at ht
    rw [hnow]
    exact ⟨hearly, (Option.some.inj ht).symm, Nat.le_of_lt tt.second_lt_decision,
      tt.second_le_final hearly⟩
  | ends he hl =>
    obtain ⟨hends, hputs⟩ := h.ends_exit hs hw hs' he
    refine ⟨?_, hputs⟩
    simp only [hl.phase, hl.activity, Session.Scene.after]
    exact hends

theorem timed_serves (hs : tt.Sound ranker request x) (hw : x.Wired) (h : tt.Timed x)
    (hs' : tt.Sound ranker request ⟨x.scene.after e s, x.setting⟩)
    (ht : x.scene.session.Transition x.scene.now x.scene.stopping e s) :
    tt.Timed ⟨x.scene.after e s, x.setting⟩ := by
  obtain ⟨hserves, hputs⟩ := serves_transition hs hw h hs' ht
  refine ⟨h.calls, hserves, hears_serves h (not_served_iff.mpr ht.not_over) e s, fun reply hm => ?_⟩
  have hm' : reply ∈ x.scene.history.written ++ e.puts := by
    rw [← Session.History.written_add]
    exact hm
  rcases List.mem_append.mp hm' with hm' | hm'
  · exact h.batches reply hm'
  · exact hputs reply hm'

end Serves

/-- A session that is over for want of a reader has not lost one that is still there. -/
theorem serves_receiver {receiver : Exchange.Receiver} (h : tt.Serves x.scene receiver)
    (hr : receiver ≠ .over .stopped) (receiver' : Exchange.Receiver) :
    tt.Serves x.scene receiver' := by
  unfold Serves at h ⊢
  split at h <;> try exact h
  cases h with
  | completes hearly hfirst hdue hwritten hc => exact .completes hearly hfirst hdue hwritten hc
  | idles hlate hdue hwritten hc => exact .idles hlate hdue hwritten hc
  | deserted hstopped _ _ => exact absurd hstopped hr

/-! ## The caller -/

section Calls
variable {said : List Context} {e : Exchange}

/-- The session waits for the second context as long as the caller has it to say. -/
theorem Timed.not_served_offering (hs : tt.Sound ranker request x) (hw : x.Wired)
    (h : tt.Timed x) (hstage : x.setting.exchange.stage = .offeringFirst ∨
      x.setting.exchange.stage = .offeringSecond) : ¬ x.Served := by
  rintro ⟨r, hr⟩
  have hcalls := h.calls
  have hspoken := hs.orderly.spoken
  have hcoursed := hw.setting.coursed
  have hread := hs.read
  unfold Calls at hcalls
  unfold Exchange.Setting.Spoken at hspoken
  unfold Exchange.Coursed at hcoursed
  cases h.ends hr with
  | completes _ _ _ _ htwo =>
    rcases hstage with hstage | hstage
    · simp only [hstage] at hspoken
      simp [hspoken.1, htwo] at hread
    · simp only [hstage] at hspoken
      simp [hspoken, htwo] at hread
  | idles hlate _ _ hone =>
    rcases hstage with hstage | hstage
    · simp only [hstage] at hspoken
      simp [hspoken.1, hone] at hread
    · simp only [hstage] at hcalls
      exact Nat.lt_asymm hlate hcalls.2.1
  | deserted hstopped _ _ =>
    obtain ⟨-, -, hstopping⟩ := h.of_stopped hstopped
    rcases hstage with hstage | hstage
    · simp [hstage, hstopping] at hcoursed
    · simp [hstage, hstopping] at hcoursed

/-- A wait of the caller is cut short only by the end of the session. -/
theorem Timed.cut (hw : x.Wired) (h : tt.Timed x)
    {termination : Exchange.Termination}
    (hstopping : x.setting.exchange.stopping = false)
    (hsaid : x.setting.contexts.length = 1 ∨ tt.second < tt.idle)
    (hc : x.setting.exchange.Cut termination) :
    tt.Concludes x.setting.now x.setting.replies.length x.setting.contexts.length
      x.setting.exchange.receiver termination := by
  cases hc with
  | cancelled hc => cases hw.setting.uncancelled.symm.trans hc
  | @ended ending _ hr =>
    cases ending with
    | failed code => exact absurd hr (h.not_failed code)
    | stopped => cases hstopping.symm.trans (h.of_stopped hr).2.2
    | completed =>
      obtain ⟨⟨report, hover⟩, hall⟩ := h.of_completed hr
      have hnow := hw.clocks
      cases h.ends hover with
      | completes hearly hfirst hdue hw _ =>
        exact .completes hearly hfirst (hnow.trans hdue) (hall ▸ hw) hr
      | idles hlate hdue hw _ =>
        rcases hsaid with hsaid | hearly
        · exact .idles hlate (hnow.trans hdue) (hall ▸ hw) hsaid hr
        · exact absurd hearly (Nat.lt_asymm hlate)

/-- A decision that comes first has heard two revisions, and no third. -/
theorem Awaits.decides (hs : tt.Sound ranker request x) (h : tt.Timed x)
    (ha : tt.Awaits x.setting.now x.setting.exchange.startedAt x.setting.replies.length)
    (hsaid : x.setting.contexts.length = 2)
    (hdue : tt.decision ≤ x.setting.now) (receiver : Exchange.Receiver) :
    tt.Concludes x.setting.now x.setting.replies.length x.setting.contexts.length receiver
      .decisionTimeout := by
  have hnow : x.setting.now = tt.decision := Instant.le_antisymm ha.due hdue
  have hfirst : tt.decision < tt.final :=
    Instant.lt_of_le_of_ne (hnow ▸ ha.final) (tt.decision_ne_final ha.early)
  have hheard : 2 ≤ x.setting.replies.length :=
    ha.heard (hnow ▸ tt.second_lt_decision)
  have hwritten := (h.undeferred hs ha.early hfirst).2
  have hle := hs.heard.length_le
  exact .decides ha.early hfirst hnow (by omega) hsaid

theorem calls_turn (hs : tt.Sound ranker request x) (hw : x.Wired) (h : tt.Timed x)
    (ht : x.setting.exchange.Turn x.setting.now said e) :
    tt.Calls (x.setting.afterTurn said e) := by
  have hcalls := h.calls
  have hcoursed := hw.setting.coursed
  have hspoken := hs.orderly.spoken
  have hoffers := h.not_served_offering hs hw
  have hsame : (x.setting.afterTurn [] e).contexts = x.setting.contexts := by
    rw [Exchange.Setting.contexts_afterTurn, List.append_nil]
  unfold Calls at hcalls ⊢
  unfold Exchange.Coursed at hcoursed
  unfold Exchange.Setting.Spoken at hspoken
  cases ht with
  | announces hstage =>
    simp only [hstage] at hcalls
    obtain ⟨hnow, hsource⟩ := hcalls
    exact ⟨hnow, hnow, hsource⟩
  | sendsFirst hstage _ =>
    simp only [hstage] at hcalls
    obtain ⟨hnow, hstarted, hsource⟩ := hcalls
    exact ⟨hnow, congrArg some hnow, hstarted, hsource⟩
  | losesFirst hstage hg => exact absurd (hw.refused hg) (hoffers (.inl hstage))
  | pauses hstage hf hd =>
    simp only [hstage] at hcalls
    obtain ⟨hnow, hfirst, hstarted, hsource⟩ := hcalls
    obtain rfl := Option.some.inj (hf.symm.trans hfirst)
    rw [hs.params, tt.secondAt] at hd
    refine ⟨(Option.some.inj hd).symm, ?_, ?_, hstarted, hsource⟩
    · exact hnow.symm ▸ tt.start_le_second
    · exact hnow.symm ▸ Nat.le_of_lt tt.start_lt_idle
  | forgoes hstage hf =>
    simp only [hstage] at hcalls
    cases hf.symm.trans hcalls.2.1
  | breaks hstage hf hd =>
    simp only [hstage] at hcalls
    obtain rfl := Option.some.inj (hf.symm.trans hcalls.2.1)
    rw [hs.params, tt.secondAt] at hd
    cases hd
  | isCut hstage hc =>
    show _ ∧ tt.Concludes _ _ (x.setting.afterTurn [] _).contexts.length _ _
    rw [hsame]
    rcases hstage with hstage | hstage
    · simp only [hstage] at hcalls hcoursed hspoken
      exact ⟨hcalls.2.2.2.startedAt, h.cut hw hcoursed.1 (.inl (by simp [hspoken])) hc⟩
    · simp only [hstage] at hcalls hcoursed
      exact ⟨hcalls.2.startedAt, h.cut hw hcoursed.1 (.inr hcalls.2.early) hc⟩
  | resumes hstage he =>
    simp only [hstage] at hcalls
    obtain ⟨rfl, hsecond, hidle, hstarted, hsource⟩ := hcalls
    have hnow : x.setting.now = tt.second := Instant.le_antisymm hsecond he.due
    exact ⟨hnow, Instant.lt_of_le_of_ne (hnow ▸ hidle) tt.second_ne_idle, hstarted, hsource⟩
  | sendsSecond hstage _ =>
    simp only [hstage] at hcalls
    obtain ⟨hnow, hearly, hstarted, hsource⟩ := hcalls
    have htimeout : (x.setting.exchange.say x.setting.exchange.request.secondContext).timeout?.bind
        x.setting.now.after? = some tt.decision := by
      have hdraws := tt.decisionAt hearly
      rw [← hs.params, ← hsource, ← hnow] at hdraws
      exact hdraws
    have hdecides := Exchange.Play.decide_stage
      (x.setting.exchange.say x.setting.exchange.request.secondContext) x.setting.now
    rw [htimeout] at hdecides
    obtain ⟨stage, source, drawn, journal, he, -⟩ :=
      (x.setting.exchange.say x.setting.exchange.request.secondContext).decide_spec x.setting.now
    rw [he] at hdecides ⊢
    obtain rfl : stage = .deciding tt.decision := hdecides
    refine ⟨rfl, hearly, hstarted, ?_, ?_, ?_, fun hlater => ?_⟩
    · exact Nat.le_of_eq (congrArg Instant.nanos hnow.symm)
    · exact hnow.symm ▸ Nat.le_of_lt tt.second_lt_decision
    · exact hnow.symm ▸ tt.second_le_final hearly
    · exact absurd hlater (hnow.symm ▸ Nat.lt_irrefl _)
  | losesSecond hstage hg => exact absurd (hw.refused hg) (hoffers (.inr hstage))
  | decides hstage he =>
    simp only [hstage] at hcalls hspoken
    obtain ⟨rfl, hawaits⟩ := hcalls
    show _ ∧ tt.Concludes _ _ (x.setting.afterTurn [] _).contexts.length _ _
    rw [hsame]
    exact ⟨hawaits.startedAt, hawaits.decides hs h (by simp [hspoken]) he.due _⟩
  | concludes hstage hr =>
    simp only [hstage] at hcalls
    obtain ⟨hstarted, hconcludes⟩ := hcalls
    show _ ∧ tt.Concludes _ _ (x.setting.afterTurn [] _).contexts.length _ _
    rw [hsame]
    refine ⟨?_, hconcludes⟩
    show x.setting.exchange.startedAt.elapsed _ = _
    rw [hstarted]
    rfl

theorem timed_calls (hs : tt.Sound ranker request x) (hw : x.Wired) (h : tt.Timed x)
    (ht : x.setting.exchange.Turn x.setting.now said e) :
    tt.Timed ⟨x.scene, x.setting.afterTurn said e⟩ := by
  have hhears := h.hears
  have hreceiver := hs.orderly.spoken.receiver_turn ht
  refine ⟨calls_turn hs hw h ht, ?_, ?_, h.batches⟩
  · show tt.Serves x.scene e.receiver
    rcases hreceiver with hr | ⟨habsent, hr⟩
    · rw [hr]
      exact h.serves
    · exact serves_receiver h.serves (by simp [habsent]) e.receiver
  · unfold Hears at hhears ⊢
    rcases hreceiver with hr | ⟨-, hr⟩
    · simp only [Exchange.Setting.afterTurn, hr]
      split at hhears
      · trivial
      · trivial
      · exact hhears
      · exact ⟨hhears.1, hhears.2.1, ht.stopping hhears.2.2⟩
      · exact hhears
    · simp only [Exchange.Setting.afterTurn, hr]

end Calls

/-! ## The receiver -/

section Hears
variable {heard : List Reply} {e : Exchange}

/-- A receiver told to stop has been stopped by the decision. -/
theorem Timed.stopped_reading (hw : x.Wired) (h : tt.Timed x)
    (hr : x.setting.exchange.receiver = .reading) (hs : x.setting.exchange.stopping = true) :
    tt.second < tt.idle ∧ tt.decision < tt.final := by
  have hcalls := h.calls
  have hcoursed := hw.setting.coursed
  have hconcludes : ∀ {termination}, tt.Concludes x.setting.now x.setting.replies.length
      x.setting.contexts.length x.setting.exchange.receiver termination →
      tt.second < tt.idle ∧ tt.decision < tt.final := by
    intro termination hc
    cases hc with
    | decides hearly hfirst _ _ _ => exact ⟨hearly, hfirst⟩
    | completes _ _ _ _ hover | idles _ _ _ _ hover => cases hr.symm.trans hover
  unfold Calls at hcalls
  unfold Exchange.Coursed at hcoursed
  cases hstage : x.setting.exchange.stage with
  | starting | offeringFirst | resuming | pausing _ | offeringSecond | deciding _ =>
    simp [hstage, hs] at hcoursed
  | releasing _ | «over» _ =>
    simp only [hstage] at hcalls
    exact hconcludes hcalls.2
  | brokenDown => simp [hstage] at hcalls

/-- What waits for the receiver are batches. -/
theorem Timed.batch (hs : tt.Sound ranker request x) (h : tt.Timed x) {reply : Reply}
    (hr : x.setting.exchange.receiver = .reading)
    (hm : reply ∈ x.setting.exchange.stream.replies.queue) : ∃ b, reply = .batch b := by
  have hall := hs.orderly.attentive.waiting (by simp [hr])
  have htaken : x.scene.taken <+: x.scene.history.written := ⟨_, hs.conserved⟩
  refine h.batches reply ((hs.linked.brought.trans htaken).subset ?_)
  rw [← hall]
  exact List.mem_append_right _ hm

theorem calls_hearing (hw : x.Wired) (h : tt.Timed x)
    (hh : x.setting.exchange.Hearing x.setting.now heard e) :
    tt.Calls (x.setting.afterHearing heard e) := by
  have hcalls := h.calls
  have hcoursed := hw.setting.coursed
  have hm := hh.minds
  obtain ⟨-, hstarted, hsource, -⟩ := hh.keeps
  have hbegun : tt.Begun x.setting.exchange.startedAt x.setting.exchange.source →
      tt.Begun e.startedAt e.source := by
    rw [hstarted, hsource]
    exact id
  have hreplies := x.setting.replies_afterHearing heard e
  -- once it is told to stop the receiver hears nothing more
  have hconcludes : ∀ {termination}, x.setting.exchange.stopping = true →
      tt.Concludes x.setting.now x.setting.replies.length x.setting.contexts.length
        x.setting.exchange.receiver termination →
      tt.Concludes x.setting.now (x.setting.afterHearing heard e).replies.length
        x.setting.contexts.length e.receiver termination := by
    intro termination hstopping hc
    cases hh with
    | takes _ hs _ | completes _ hs _ _ => cases hs.symm.trans hstopping
    | isStopped hr _ =>
      rw [hreplies, List.append_nil]
      cases hc with
      | decides hearly hfirst hdue hheard hsaid => exact .decides hearly hfirst hdue hheard hsaid
      | completes _ _ _ _ hover | idles _ _ _ _ hover => cases hr.symm.trans hover
  unfold Calls at hcalls ⊢
  unfold Exchange.Coursed at hcoursed
  simp only [Exchange.Setting.afterHearing, hm.stage, hm.firstSent]
  cases hstage : x.setting.exchange.stage with
  | starting =>
    simp only [hstage] at hcalls
    exact ⟨hcalls.1, hsource.trans hcalls.2⟩
  | offeringFirst =>
    simp only [hstage] at hcalls
    exact ⟨hcalls.1, hbegun hcalls.2⟩
  | resuming | offeringSecond =>
    simp only [hstage] at hcalls
    exact ⟨hcalls.1, hcalls.2.1, hbegun hcalls.2.2⟩
  | pausing deadline =>
    simp only [hstage] at hcalls
    exact ⟨hcalls.1, hcalls.2.1, hcalls.2.2.1, hbegun hcalls.2.2.2⟩
  | deciding deadline =>
    simp only [hstage] at hcalls
    obtain ⟨hdeadline, ha⟩ := hcalls
    refine ⟨hdeadline, ha.early, hstarted.trans ha.startedAt, ha.since, ha.due, ha.final,
      fun hlater => ?_⟩
    have hle := ha.heard hlater
    show 2 ≤ (x.setting.afterHearing heard e).replies.length
    rw [hreplies, List.length_append]
    omega
  | releasing termination =>
    simp only [hstage] at hcalls hcoursed
    exact ⟨hstarted.trans hcalls.1, hconcludes hcoursed.1 hcalls.2⟩
  | «over» o =>
    simp only [hstage] at hcalls hcoursed
    exact ⟨hcalls.1, hconcludes hcoursed hcalls.2⟩
  | brokenDown => simp [hstage] at hcalls

theorem hears_hearing (hs : tt.Sound ranker request x) (hw : x.Wired) (h : tt.Timed x)
    (hh : x.setting.exchange.Hearing x.setting.now heard e) :
    tt.Hears ⟨x.scene, x.setting.afterHearing heard e⟩ := by
  cases hh with
  | isStopped hr hstopping =>
    obtain ⟨hearly, hfirst⟩ := h.stopped_reading hw hr hstopping
    exact ⟨hearly, hfirst, hstopping⟩
  | @takes reply rest hr _ hq =>
    have hm : reply ∈ x.setting.exchange.stream.replies.queue := by
      rw [hq]
      exact List.mem_cons_self
    obtain ⟨b, rfl⟩ := h.batch hs hr hm
    have hreading : (x.setting.exchange.takeReply.onReply x.setting.now (.batch b)).receiver =
        .reading := hr
    unfold Hears
    simp only [Exchange.Setting.afterHearing, hreading]
  | completes hr _ hq hg =>
    -- the session is over, and all that it queued has come and has been heard
    have hheard : ¬ x.Heard := by
      rintro ⟨ending, hover⟩
      cases hr.symm.trans hover
    obtain ⟨⟨r, hover⟩, hbrought⟩ := hw.closed hg
    have hall := hs.orderly.attentive.waiting (not_heard_iff.mp hheard)
    rw [hq, List.append_nil] at hall
    refine ⟨?_, ?_⟩
    · cases h.ends hover with
      | completes _ _ _ _ _ | idles _ _ _ _ => exact ⟨_, hover⟩
      | deserted hstopped _ _ => cases hr.symm.trans hstopped
    · show (x.setting.afterHearing [] _).replies = _
      rw [Exchange.Setting.replies_afterHearing, List.append_nil, hall]
      exact hbrought hheard

theorem timed_receives (hs : tt.Sound ranker request x) (hw : x.Wired) (h : tt.Timed x)
    (hh : x.setting.exchange.Hearing x.setting.now heard e) :
    tt.Timed ⟨x.scene, x.setting.afterHearing heard e⟩ := by
  have hreading := hh.receiver.1
  exact ⟨calls_hearing hw h hh, serves_receiver h.serves (by simp [hreading]) e.receiver,
    hears_hearing hs hw h hh, h.batches⟩

end Hears

/-! ## What is carried -/

theorem timed_take_scene (h : tt.Timed x) (c : Session.Cue) :
    tt.Timed ⟨x.scene.take c, x.setting⟩ := by
  obtain ⟨_, _, _, he⟩ := x.scene.take_eq c
  rw [he]
  exact ⟨h.calls, h.serves, h.hears, h.batches⟩

theorem timed_take_setting (h : tt.Timed x) (c : Exchange.Cue) :
    tt.Timed ⟨x.scene, x.setting.take c⟩ := by
  obtain ⟨_, _, _, _, he⟩ := x.setting.take_eq c
  rw [he]
  exact ⟨h.calls, h.serves, h.hears, h.batches⟩

end Timetable
end ProgressiveSearch
