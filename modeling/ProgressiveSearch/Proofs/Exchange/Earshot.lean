import ProgressiveSearch.Proofs.Exchange.Ending

/-! # What a receiver has heard by then

A script settles what there is to hear, and when: the replies that it brings while the
stream is open, up to the first that ends the receiver (`arrivals`, `audible`).  In
which order the tasks take their turns only matters from one moment to the next.  A
receiver has heard a first part of all that there is, and the rest comes now or later
(`HeardUpTo`, `inStore`).

So of a call that is not given up, and whose requests are taken, one can tell at its
end what it has heard (`closed_after`): everything, if the receiver has come to its own
end, and otherwise all that came before the decision and nothing that came after it.
-/
namespace ProgressiveSearch.Exchange

/-! ## What there is to hear -/

/-- The replies that a script brings while the stream is open, and when. -/
def arrivals : Script → List (Instant × Reply)
  | [] => []
  | (t, .bring r) :: rest => (t, r) :: arrivals rest
  | (_, .close) :: _ => []
  | (_, .cancel) :: rest | (_, .pick) :: rest | (_, .refuse) :: rest => arrivals rest

/-- The replies up to the first that ends the receiver. -/
def audible : List (Instant × Reply) → List (Instant × Reply)
  | [] => []
  | (t, r) :: rest => (t, r) :: if (ending? r).isSome then [] else audible rest

theorem mem_of_mem_arrivals {script : Script} {t : Instant} {r : Reply}
    (h : (t, r) ∈ arrivals script) : (t, .bring r) ∈ script := by
  induction script with
  | nil => cases h
  | cons entry rest ih =>
    obtain ⟨u, c⟩ := entry
    cases c with
    | bring r' =>
      rcases List.mem_cons.mp h with he | h
      · obtain ⟨rfl, rfl⟩ := Prod.mk.inj he
        exact List.mem_cons_self
      · exact List.mem_cons_of_mem _ (ih h)
    | close => cases h
    | cancel | pick | refuse => exact List.mem_cons_of_mem _ (ih h)

theorem mem_of_mem_audible {l : List (Instant × Reply)} {entry : Instant × Reply}
    (h : entry ∈ audible l) : entry ∈ l := by
  induction l with
  | nil => cases h
  | cons first rest ih =>
    rcases List.mem_cons.mp h with rfl | h
    · exact List.mem_cons_self
    · split at h
      · cases h
      · exact List.mem_cons_of_mem _ (ih h)

/-- **A first part of all that there is to hear has been heard**, and the rest has not. -/
def HeardUpTo (all : List (Instant × Reply)) (x : Setting) (rest : List (Instant × Reply)) : Prop :=
  ∃ past, all = past ++ rest ∧ past.map Prod.snd = x.replies ∧ ∀ entry ∈ past, entry.1 ≤ x.now

/-- **What was heard by an exchange that ends like this.**  Nothing is left but what was
still to come when it decided. -/
def Closed (all : List (Instant × Reply)) (x : Setting) (termination : Termination) : Prop :=
  ∃ rest, HeardUpTo all x rest ∧ (termination ≠ .decisionTimeout → rest = []) ∧
    ∀ entry ∈ rest, x.now ≤ entry.1

section Heard
variable {all rest : List (Instant × Reply)} {x y : Setting}

/-- Whoever hears nothing has heard as much as before. -/
theorem HeardUpTo.later (h : HeardUpTo all x rest) (hr : y.replies = x.replies)
    (hn : x.now ≤ y.now) : HeardUpTo all y rest := by
  obtain ⟨past, hall, hpast, hcome⟩ := h
  exact ⟨past, hall, hpast.trans hr.symm, fun entry hm => Nat.le_trans (hcome entry hm) hn⟩

/-- What is heard now has come by now. -/
theorem HeardUpTo.hears {r : Reply} {e : Exchange} (h : HeardUpTo all x ((x.now, r) :: rest)) :
    HeardUpTo all (x.afterHearing [r] e) rest := by
  obtain ⟨past, hall, hpast, hcome⟩ := h
  refine ⟨past ++ [(x.now, r)], by rw [hall, List.append_assoc]; rfl, ?_, fun entry hm => ?_⟩
  · rw [Setting.replies_afterHearing, List.map_append, hpast]
    rfl
  · rcases List.mem_append.mp hm with hm | hm
    · exact hcome entry hm
    · obtain rfl := List.mem_singleton.mp hm
      exact Nat.le_refl _

theorem Closed.keep {termination : Termination} (h : Closed all x termination)
    (hr : y.replies = x.replies) (hn : y.now = x.now) : Closed all y termination := by
  obtain ⟨rest, hheard, hnone, hcome⟩ := h
  refine ⟨rest, hheard.later hr (Nat.le_of_eq (congrArg _ hn.symm)), hnone, ?_⟩
  rw [hn]
  exact hcome

end Heard

namespace Play

/-- What the receiver can still hear: what waits for it has come just now. -/
def inStore (p : Play) : List (Instant × Reply) :=
  match p.setting.exchange.receiver with
  | .over _ => []
  | .absent | .reading =>
    let replies := p.setting.exchange.stream.replies
    audible (replies.queue.map (p.setting.now, ·) ++
      if replies.senderGone then [] else arrivals p.script)

/-- **Nothing that there is to hear is lost** as long as the exchange has not ended. -/
def Attends (all : List (Instant × Reply)) (p : Play) : Prop :=
  match p.setting.exchange.stage with
  | .releasing termination => Closed all p.setting termination
  | .over o => Closed all p.setting o.termination
  | .brokenDown => True
  | _ => HeardUpTo all p.setting p.inStore

/-- A call that nobody gives up, and whose requests are taken. -/
structure Live (p : Play) : Prop where
  uncancelled : p.setting.exchange.cancelled = false
  present : p.setting.exchange.stream.requests.receiverGone = false
  sent : p.setting.exchange.firstSent.isSome = true
  quiet : ∀ entry ∈ p.script, entry.2 ≠ .cancel ∧ entry.2 ≠ .refuse

variable {p q : Play} {clock : Clock} {receiverFirst : Bool} {all : List (Instant × Reply)}

theorem live_advance (h : p.Live) (hp : p.Punctual clock) (ha : p.Advance clock receiverFirst q) :
    q.Live := by
  have hstaged := hp.staged
  unfold Staged at hstaged
  cases ha with
  | @takes t c rest hs _ =>
    have hquiet := h.quiet
    rw [hs] at hquiet
    obtain ⟨hcancel, hrefuse⟩ := hquiet (t, c) List.mem_cons_self
    have hsent := h.sent
    obtain ⟨_, _, _, _, he⟩ := p.setting.take_eq c
    refine ⟨?_, ?_, ?_, fun entry hm => hquiet entry (List.mem_cons_of_mem _ hm)⟩
    · rw [cancelled_take, h.uncancelled]
      simpa using hcancel
    · rw [refused_take, h.present]
      simpa using hrefuse
    · rw [he]
      exact hsent
  | @calls said e _ ht _ =>
    refine ⟨(cancelled_turn ht).trans h.uncancelled, ht.speaks.refused.trans h.present, ?_, h.quiet⟩
    have hsent := h.sent
    dsimp only [Setting.afterTurn]
    cases ht with
    | announces hs | sendsFirst hs _ | losesFirst hs _ => simp only [hs] at hstaged
    | sendsSecond _ _ =>
      obtain ⟨stage, source, drawn, journal, he, -⟩ :=
        (p.setting.exchange.say p.setting.exchange.request.secondContext).decide_spec p.setting.now
      rw [he]
      exact hsent
    | _ => exact hsent
  | @hears heard e _ hh =>
    have hm := hh.minds
    refine ⟨hh.keeps.2.2.2.trans h.uncancelled, ?_, ?_, h.quiet⟩
    · dsimp only [Setting.afterHearing]
      rw [hm.requests]
      exact h.present
    · dsimp only [Setting.afterHearing]
      rw [hm.firstSent]
      exact h.sent
  | waits _ _ _ _ => exact ⟨h.uncancelled, h.present, h.sent, h.quiet⟩

/-! ## What is in store -/

/-- Nothing in store is past. -/
theorem now_le_inStore (h : p.Punctual clock) : ∀ entry ∈ p.inStore, p.setting.now ≤ entry.1 := by
  intro entry hm
  have hcome : ∀ {l : List (Instant × Reply)}, l = [] ∨ l = arrivals p.script →
      entry ∈ audible (p.setting.exchange.stream.replies.queue.map (p.setting.now, ·) ++ l) →
        p.setting.now ≤ entry.1 := by
    intro l hl hm
    rcases List.mem_append.mp (mem_of_mem_audible hm) with hm | hm
    · obtain ⟨r, -, rfl⟩ := List.mem_map.mp hm
      exact Nat.le_refl _
    · rcases hl with rfl | rfl
      · cases hm
      · exact h.order.all _ (mem_of_mem_arrivals hm)
  unfold inStore at hm
  split at hm
  · cases hm
  all_goals
    refine hcome ?_ hm
    split
    · exact .inl rfl
    · exact .inr rfl

/-- What the script brings was in store. -/
theorem inStore_takes {t : Instant} {c : Cue} {rest : Script} (h : p.Punctual clock)
    (hs : p.script = (t, c) :: rest) (ht : t = p.setting.now) :
    inStore ⟨p.setting.take c, rest⟩ = p.inStore := by
  have hpresent := h.faithful.attentive.present
  unfold inStore
  rw [Setting.receiver_take, Setting.now_take, hs, ht]
  have hreplies : (∀ ending, p.setting.exchange.receiver ≠ .over ending) →
      ((p.setting.take c).exchange.stream.replies.queue.map (p.setting.now, ·) ++
        if (p.setting.take c).exchange.stream.replies.senderGone then [] else arrivals rest) =
      p.setting.exchange.stream.replies.queue.map (p.setting.now, ·) ++
        if p.setting.exchange.stream.replies.senderGone then []
        else arrivals ((p.setting.now, c) :: rest) := by
    intro hn
    have hg := hpresent hn
    cases c with
    | cancel | refuse => rfl
    | close => simp [Setting.take, Setting.withStream, Channel.dropSender, arrivals]
    | pick =>
      have hsame : (p.setting.take .pick).exchange.stream.replies =
          p.setting.exchange.stream.replies := by
        unfold Setting.take
        dsimp only
        split <;> rfl
      rw [hsame]
      rfl
    | bring r =>
      unfold Setting.take
      by_cases hgone : p.setting.exchange.stream.replies.senderGone = true
      · simp [hgone]
      · simp [hgone, hg, Setting.withStream, Channel.put, arrivals]
  cases hr : p.setting.exchange.receiver with
  | «over» _ => rfl
  | absent | reading => exact congrArg audible (hreplies (by simp [hr]))

/-- A turn of the caller leaves in store what is there. -/
theorem inStore_calls {said : List Context} {e : Exchange} (h : p.setting.Faithful)
    (ht : p.setting.exchange.Turn p.setting.now said e) :
    inStore { p with setting := p.setting.afterTurn said e } = p.inStore := by
  unfold inStore
  dsimp only [Setting.afterTurn]
  rw [ht.speaks.replies]
  rcases h.spoken.receiver_turn ht with hr | ⟨habsent, hr⟩
  · rw [hr]
  · rw [hr, habsent]

/-- The receiver hears what is in store. -/
theorem heardUpTo_hears {heard : List Reply} {e : Exchange}
    (hs : p.setting.exchange.stopping = false)
    (hh : p.setting.exchange.Hearing p.setting.now heard e)
    (h : HeardUpTo all p.setting p.inStore) :
    HeardUpTo all (p.setting.afterHearing heard e)
      (inStore { p with setting := p.setting.afterHearing heard e }) := by
  have hsame : ∀ e, (p.setting.afterHearing [] e).replies = p.setting.replies := fun e => by
    rw [Setting.replies_afterHearing, List.append_nil]
  unfold inStore at h
  cases hh with
  | isStopped _ hs' => cases hs'.symm.trans hs
  | completes hr _ hq hg =>
    simp only [hr, hq, hg, List.map_nil, List.nil_append, if_true] at h
    exact h.later (hsame _) (Nat.le_refl _)
  | @takes reply rest hr _ hq =>
    simp only [hr, hq, List.map_cons, List.cons_append, audible] at h
    have hnext := h.hears (e := p.setting.exchange.takeReply.onReply p.setting.now reply)
    cases reply with
    | batch b =>
      unfold inStore
      simpa [Setting.afterHearing, takeReply, onReply, store, hr, hq, ending?] using hnext
    | failed status | fault => exact hnext

/-! ## Along a play -/

/-- An exchange whose first context is said and whose second is not decided over is not
done with hearing. -/
theorem Attends.unended (h : p.Attends all) (hs : ∀ termination,
    p.setting.exchange.stage ≠ .releasing termination)
    (ho : p.setting.exchange.verdict? = none) : HeardUpTo all p.setting p.inStore := by
  unfold Attends at h
  unfold verdict? at ho
  split at h
  · rename_i hstage
    exact absurd hstage (hs _)
  · rename_i hstage
    simp [hstage] at ho
  · rename_i hstage
    simp [hstage] at ho
  · exact h

theorem attends_calls {said : List Context} {e : Exchange} (hp : p.Punctual clock) (hl : p.Live)
    (h : p.Attends all) (ho : p.setting.exchange.verdict? = none)
    (ht : p.setting.exchange.Turn p.setting.now said e) :
    Attends all { p with setting := p.setting.afterTurn said e } := by
  have hstore := inStore_calls hp.faithful ht
  have hkeep : (∀ termination, p.setting.exchange.stage ≠ .releasing termination) →
      HeardUpTo all (p.setting.afterTurn said e)
        (inStore { p with setting := p.setting.afterTurn said e }) := by
    intro hs
    rw [hstore]
    exact (h.unended hs ho).later rfl (Nat.le_refl _)
  have hsent := hl.sent
  cases ht with
  | announces hs | sendsFirst hs _ | losesFirst hs _ | pauses hs _ _ | resumes hs _ =>
    exact hkeep (by simp [hs])
  | forgoes _ hf => simp [hf] at hsent
  | breaks _ _ _ => trivial
  | @isCut deadline termination hs hc =>
    have hwaits : ∀ termination, p.setting.exchange.stage ≠ .releasing termination := by
      rcases hs with hs | hs <;> simp [hs]
    have hheard := h.unended hwaits ho
    cases hc with
    | cancelled hc => cases hc.symm.trans hl.uncancelled
    | ended _ hr =>
      -- a receiver that has come to its end has heard everything
      have hnone : p.inStore = [] := by
        unfold inStore
        rw [hr]
      rw [hnone] at hheard
      exact ⟨[], hheard.later rfl (Nat.le_refl _), fun _ => rfl, List.forall_mem_nil _⟩
  | sendsSecond hs _ =>
    have hnext := hkeep (by simp [hs])
    obtain ⟨stage, source, drawn, journal, he, hstage⟩ :=
      (p.setting.exchange.say p.setting.exchange.request.secondContext).decide_spec p.setting.now
    rw [he] at hnext ⊢
    rcases hstage with rfl | ⟨deadline, rfl⟩
    · trivial
    · exact hnext
  | losesSecond _ hg => cases hg.symm.trans hl.present
  | decides hs he =>
    -- what is left has come now, or is still to come
    have hheard := h.unended (by simp [hs]) ho
    exact ⟨p.inStore, hheard.later rfl (Nat.le_refl _), fun hn => absurd rfl hn,
      now_le_inStore hp⟩
  | @concludes termination ending hs _ =>
    unfold Attends at h
    simp only [hs] at h
    exact Closed.keep (y := p.setting.afterTurn [] _) h rfl rfl

theorem attends_takes {t : Instant} {c : Cue} {rest : Script} (hp : p.Punctual clock)
    (h : p.Attends all) (hs : p.script = (t, c) :: rest) (ht : t ≤ p.setting.now) :
    Attends all ⟨p.setting.take c, rest⟩ := by
  have hat : t = p.setting.now := Instant.le_antisymm ht (hp.order.all (t, c) (by simp [hs]))
  have hnow := p.setting.now_take c
  have hreplies : (p.setting.take c).replies = p.setting.replies := by
    obtain ⟨_, _, _, _, he⟩ := p.setting.take_eq c
    rw [he]
    rfl
  unfold Attends at h ⊢
  rw [inStore_takes hp hs hat, Setting.stage_take]
  split at h
  · exact h.keep hreplies hnow
  · exact h.keep hreplies hnow
  · trivial
  · exact h.later hreplies (Nat.le_of_eq (congrArg _ hnow.symm))

/-- A receiver that is told to stop hears nothing more. -/
theorem attends_stops {heard : List Reply} {e : Exchange} (hp : p.Punctual clock)
    (h : p.Attends all) (hs : p.setting.exchange.stopping = true)
    (hh : p.setting.exchange.Hearing p.setting.now heard e) :
    Attends all { p with setting := p.setting.afterHearing heard e } := by
  have hnothing : heard = [] := by
    cases hh with
    | isStopped _ _ | completes _ _ _ _ => rfl
    | takes _ hn _ => cases hn.symm.trans hs
  subst hnothing
  have hreplies : (p.setting.afterHearing [] e).replies = p.setting.replies := by
    rw [Setting.replies_afterHearing, List.append_nil]
  have hstaged := hp.staged
  unfold Staged at hstaged
  unfold Attends at h ⊢
  rw [show (p.setting.afterHearing [] e).exchange.stage = e.stage from rfl, hh.minds.stage]
  cases hcase : p.setting.exchange.stage with
  | releasing _ | «over» _ =>
    simp only [hcase] at h
    exact h.keep hreplies rfl
  | brokenDown => trivial
  | starting | offeringFirst => simp only [hcase] at hstaged
  | resuming | pausing _ | offeringSecond | deciding _ => simp [hcase, hs] at hstaged

theorem attends_hears {heard : List Reply} {e : Exchange} (hp : p.Punctual clock)
    (h : p.Attends all) (ho : p.setting.exchange.verdict? = none)
    (hh : p.setting.exchange.Hearing p.setting.now heard e) :
    Attends all { p with setting := p.setting.afterHearing heard e } := by
  cases hs : p.setting.exchange.stopping with
  | true => exact attends_stops hp h hs hh
  | false =>
    have hstaged := hp.staged
    unfold Staged at hstaged
    have hwaits : ∀ termination, p.setting.exchange.stage ≠ .releasing termination := by
      intro termination hreleasing
      simp [hreleasing, hs] at hstaged
    have hnext := heardUpTo_hears hs hh (h.unended hwaits ho)
    unfold Attends
    rw [show (p.setting.afterHearing heard e).exchange.stage = e.stage from rfl, hh.minds.stage]
    unfold verdict? at ho
    split
    · rename_i hreleasing
      exact absurd hreleasing (hwaits _)
    · rename_i hover
      simp [hover] at ho
    · trivial
    · exact hnext

/-- While time passes the receiver waits, and nothing in store has come. -/
theorem attends_waits {deadline t : Instant} (h : p.Attends all)
    (ho : p.setting.exchange.verdict? = none)
    (hi : Idles p.setting.exchange p.setting.now deadline) (hle : p.setting.now ≤ t) :
    Attends all { p with setting := p.setting.act (.pass (p.setting.now.elapsed t)) } := by
  have hnow : (p.setting.act (.pass (p.setting.now.elapsed t))).now = t :=
    Instant.plus_elapsed hle
  have hstore : inStore { p with setting := p.setting.act (.pass (p.setting.now.elapsed t)) } =
      p.inStore := by
    unfold inStore
    dsimp only [Setting.act]
    rw [hi.reading, hi.silent]
    rfl
  have hwaits : ∀ termination, p.setting.exchange.stage ≠ .releasing termination := by
    rcases hi.waiting with hs | hs <;> simp [hs]
  have hheard := (h.unended hwaits ho).later
    (y := p.setting.act (.pass (p.setting.now.elapsed t))) rfl (by rw [hnow]; exact hle)
  unfold Attends
  rw [hstore]
  rcases hi.waiting with hs | hs
  · simpa [Setting.act, hs] using hheard
  · simpa [Setting.act, hs] using hheard

/-- **Whatever happens next, nothing is lost.** -/
theorem attends_advance (hp : p.Punctual clock) (hl : p.Live) (h : p.Attends all)
    (ho : p.setting.exchange.verdict? = none) (ha : p.Advance clock receiverFirst q) :
    q.Attends all := by
  cases ha with
  | takes hs ht => exact attends_takes hp h hs ht
  | calls _ ht _ => exact attends_calls hp hl h ho ht
  | hears _ hh => exact attends_hears hp h ho hh
  | waits _ hc hr hn =>
    obtain ⟨deadline, hi⟩ := hp.idles ho hc hr
    exact attends_waits h ho hi (hp.nextMoment hn).1

/-- A live call that goes on stays so, and loses nothing. -/
theorem attends_after (hp : p.Punctual clock) (hl : p.Live) (h : p.Attends all)
    (choices : Nat → Bool) (n : Nat) :
    (p.after clock choices n).Live ∧ (p.after clock choices n).Attends all := by
  induction n with
  | zero => exact ⟨hl, h⟩
  | succ n ih =>
    have hn := hp.stays choices n
    cases hv : (p.after clock choices n).setting.exchange.verdict? with
    | some v =>
      have hsame : p.after clock choices (n + 1) = p.after clock choices n :=
        next_of_verdict (by simp [hv])
      rw [hsame]
      exact ih
    | none =>
      have ha := hn.advances hv (choices n)
      exact ⟨live_advance ih.1 hn ha, attends_advance hn ih.1 ih.2 hv ha⟩

/-- **What a live call has heard at its end**, of all that there was to hear. -/
theorem closed_after {e : Exchange} (h : e.Resumed) {start : Instant} {script : Script}
    (hp : (ofResumed e start script).Punctual clock) (hsent : e.firstSent.isSome = true)
    (hquiet : ∀ entry ∈ script, entry.2 ≠ .cancel ∧ entry.2 ≠ .refuse) {choices : Nat → Bool}
    {n : Nat} {o : Outcome}
    (hs : ((ofResumed e start script).after clock choices n).setting.exchange.stage = .over o) :
    Closed (audible (arrivals script)) ((ofResumed e start script).after clock choices n).setting
      o.termination := by
  have hlive : (ofResumed e start script).Live :=
    ⟨h.uncancelled, h.accepts.present, hsent, hquiet⟩
  have hbegins : (ofResumed e start script).Attends (audible (arrivals script)) := by
    have hstage : (ofResumed e start script).setting.exchange.stage = .resuming := h.resuming
    have hstore : (ofResumed e start script).inStore = audible (arrivals script) := by
      simp [inStore, ofResumed, Setting.around, h.absent, h.silent, h.bound]
    unfold Attends
    rw [hstage, hstore]
    exact ⟨[], rfl, rfl, List.forall_mem_nil _⟩
  have hattends := (attends_after hp hlive hbegins choices n).2
  unfold Attends at hattends
  simpa only [hs] using hattends

end Play

end ProgressiveSearch.Exchange
