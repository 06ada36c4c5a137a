import ProgressiveSearch.Proofs.Exchange.Variant

/-! # Waiting longer in lockstep

An exchange and a variant of it that draws a later decision play against the same
script, and their tasks take their turns in the same order.  Move by move they stay
abreast (`Linked`) until the first decides and the other goes on.  From then on the
first hears nothing more and can only end by its decision (`Settles`), while what the
other has heard, and its time, only grow (`grows_next`).

So the longer wait selects from all that the shorter one has selected from, and if the
shorter one has not come to decide the two end in the same way, whatever happens around
them (`noWorse_in_lockstep`).
-/
namespace ProgressiveSearch.Exchange

/-- **Nothing is lost by waiting** for the second outcome in the place of the first. -/
structure NoWorse (o o' : Outcome) : Prop where
  revisions : o.revisions ⊆ o'.revisions
  selected : ∀ b ∈ o.selected, ∃ b' ∈ o'.selected, b.revision ≤ b'.revision
  elapsed : o.elapsed ≤ o'.elapsed
  /-- Only a wait that was up could have been longer. -/
  settled : o.termination ≠ .decisionTimeout →
    o' = { o with decisionTimeout := o'.decisionTimeout }

/-- Whoever has taken more batches has lost nothing. -/
theorem noWorse_of_taken {batches batches' : List Batch} {o o' : Outcome}
    (h : SelectionLaw batches o) (h' : SelectionLaw batches' o') (hmore : batches ⊆ batches')
    (he : o.elapsed ≤ o'.elapsed) (ht : o.termination = .decisionTimeout) : NoWorse o o' where
  revisions := by
    intro revision hr
    obtain ⟨b, hb, hrevision⟩ := (h.revisions revision).mp hr
    exact (h'.revisions revision).mpr ⟨b, hmore hb, hrevision⟩
  selected := by
    intro b hb
    obtain ⟨front, rest, rfl, -⟩ := (h.selected b).mp hb
    have hmem : b ∈ batches' := hmore (by simp)
    cases hs : o'.selected with
    | none =>
      rw [h'.nothing.mp hs] at hmem
      cases hmem
    | some b' =>
      exact ⟨b', rfl, ((h'.selected b').mp hs).le b hmem⟩
  elapsed := he
  settled := fun hn => absurd ht hn

/-- Outcomes that differ in the timeout only are as good as each other. -/
theorem noWorse_of_same {o o' : Outcome} (h : o' = { o with decisionTimeout := o'.decisionTimeout }) :
    NoWorse o o' := by
  rw [h]
  exact ⟨List.Subset.refl _, fun b hb => ⟨b, hb, UInt32.le_refl _⟩, Nat.le_refl _, fun _ => rfl⟩

namespace Play

variable {p q : Play} {clock : Clock} {receiverFirst : Bool}

/-! ## The shorter wait -/

/-- A caller that nothing cuts short wakes at its deadline. -/
theorem wake?_uncut {e : Exchange} (hc : e.cancelled = false)
    (hn : ∀ ending, e.receiver ≠ .over ending) (now deadline : Instant) :
    e.wake? now deadline = if deadline ≤ now then some .elapsed else none := by
  unfold wake?
  rw [if_neg (by simp [hc])]
  cases hr : e.receiver with
  | «over» ending => exact absurd hr (hn ending)
  | absent | reading => rfl

/-- A caller whose wait is up goes on. -/
theorem call_of_elapses {e : Exchange} {now deadline : Instant} (hs : e.stage = .deciding deadline)
    (he : e.Elapses now deadline) : e.call now = some (e.release .decisionTimeout) := by
  unfold call
  rw [hs]
  dsimp only
  rw [wake?_uncut he.uncancelled he.unended, if_pos he.due]
  rfl

/-- One whose wait is not up does not. -/
theorem call_of_asleep {e : Exchange} {now deadline : Instant} (hs : e.stage = .deciding deadline)
    (hw : e.wake? now deadline = none) : e.call now = none := by
  unfold call
  rw [hs]
  dsimp only
  rw [hw]
  rfl

/-- **An exchange that will end by its decision**, and hears nothing more. -/
inductive Settles (p : Play) : Prop
  | elapses {deadline : Instant} (hs : p.setting.exchange.stage = .deciding deadline)
      (he : p.setting.exchange.Elapses p.setting.now deadline) (hd : p.due? = none)
      (hr : p.setting.exchange.receive p.setting.now = none)
  | releasing (hs : p.setting.exchange.stage = .releasing .decisionTimeout)
      (ht : p.setting.exchange.stopping = true)
  | concluded {o : Outcome} (hs : p.setting.exchange.stage = .over o)
      (ho : o.termination = .decisionTimeout)

/-- The caller's decision settles the exchange. -/
theorem settles_decision {deadline : Instant} (hs : p.setting.exchange.stage = .deciding deadline)
    (he : p.setting.exchange.Elapses p.setting.now deadline) :
    Settles { p with setting := p.setting.act .call } ∧
      (p.setting.act .call).heard = p.setting.heard ∧ (p.setting.act .call).now = p.setting.now := by
  have hact : p.setting.act .call =
      p.setting.afterTurn (uttered p.setting.exchange (p.setting.exchange.release .decisionTimeout))
        (p.setting.exchange.release .decisionTimeout) := by
    simp only [Setting.act, call_of_elapses hs he, Setting.afterTurn]
  rw [hact]
  exact ⟨.releasing rfl rfl, rfl, rfl⟩

/-- So does its last wait, if nothing comes up in it. -/
theorem settles_wait {t deadline : Instant} (h : p.Punctual clock)
    (hi : Idles p.setting.exchange p.setting.now deadline)
    (hs : p.setting.exchange.stage = .deciding deadline)
    (hr : p.setting.exchange.receive p.setting.now = none) (hn : p.nextMoment? clock = some t)
    (hw : deadline ≤ t) (hlater : ∀ entry ∈ p.script.head?, t < entry.1) :
    Settles { p with setting := p.setting.act (.pass (p.setting.now.elapsed t)) } := by
  have hnow : (p.setting.act (.pass (p.setting.now.elapsed t))).now = t :=
    Instant.plus_elapsed (h.nextMoment hn).1
  have hunended : ∀ ending, p.setting.exchange.receiver ≠ .over ending := by simp [hi.reading]
  obtain ⟨hstopping, -⟩ := receive_eq_none hr hi.reading
  refine .elapses hs ⟨hi.uncancelled, hunended, ?_⟩ ?_ ?_
  · rw [hnow]
    exact hw
  · unfold due?
    cases hscript : p.script with
    | nil => rfl
    | cons entry rest =>
      have hlt : t < entry.1 := hlater entry (by simp [hscript])
      refine if_neg fun hle => Nat.not_le.mpr hlt ?_
      rw [← hnow]
      exact hle
  · simp [Setting.act, receive, hi.reading, hstopping, hi.silent, hi.bound]

theorem settles_advance (h : p.Punctual clock)
    (hs : p.setting.exchange.stage = .releasing .decisionTimeout)
    (ht : p.setting.exchange.stopping = true) (ho : p.setting.exchange.verdict? = none)
    (ha : p.Advance clock receiverFirst q) :
    q.Settles ∧ q.setting.heard = p.setting.heard ∧ q.setting.now = p.setting.now := by
  cases ha with
  | @takes _ c _ _ _ =>
    obtain ⟨_, _, _, _, he⟩ := p.setting.take_eq c
    rw [he]
    exact ⟨.releasing hs ht, rfl, rfl⟩
  | calls _ hturn _ =>
    cases hturn with
    | concludes hs' _ =>
      obtain rfl := Stage.releasing.inj (hs.symm.trans hs')
      exact ⟨.concluded rfl rfl, rfl, rfl⟩
    | isCut hs' _ =>
      rcases hs' with hs' | hs'
      · cases hs.symm.trans hs'
      · cases hs.symm.trans hs'
    | announces hs' | sendsFirst hs' _ | losesFirst hs' _ | pauses hs' _ _ | forgoes hs' _
    | breaks hs' _ _ | resumes hs' _ | sendsSecond hs' _ | losesSecond hs' _ | decides hs' _ =>
      cases hs.symm.trans hs'
  | hears _ hh =>
    -- a receiver that is told to stop does so at once
    cases hh with
    | isStopped _ _ => exact ⟨.releasing hs ht, List.append_nil _, rfl⟩
    | takes _ hn _ | completes _ hn _ _ => cases hn.symm.trans ht
  | waits _ hc hr _ =>
    obtain ⟨deadline, hi⟩ := h.idles ho hc hr
    rcases hi.waiting with hs' | hs'
    · cases hs.symm.trans hs'
    · cases hs.symm.trans hs'

/-- It stays so. -/
theorem settles_next (h : p.Punctual clock) (hs : p.Settles) (receiverFirst : Bool) :
    (p.next clock receiverFirst).Settles ∧
      (p.next clock receiverFirst).setting.heard = p.setting.heard ∧
      (p.next clock receiverFirst).setting.now = p.setting.now := by
  cases hs with
  | @elapses deadline hs he hd hr =>
    have ho : p.setting.exchange.verdict? = none := by simp [verdict?, hs]
    have hm : p.mover? receiverFirst = some .call := by
      rw [mover?_eq, call_of_elapses hs he, hr]
      rfl
    rw [next_of_mover ho hd hm]
    exact settles_decision hs he
  | releasing hs ht =>
    have ho : p.setting.exchange.verdict? = none := by simp [verdict?, hs]
    exact settles_advance h hs ht ho (h.advances ho receiverFirst)
  | concluded hs ho =>
    have hv : p.setting.exchange.verdict?.isSome = true := by simp [verdict?, hs]
    rw [next_of_verdict hv]
    exact ⟨.concluded hs ho, rfl, rfl⟩

/-! ## Side by side -/

/-- A play of a variant. -/
def vary (p : Play) (v : Variant) : Play := { p with setting := p.setting.vary v }

/-- The shorter wait has come to its end, and the longer one has heard at least as much. -/
structure Parted (p p' : Play) : Prop where
  settles : p.Settles
  heard : p.setting.heard <+: p'.setting.heard
  now : p.setting.now ≤ p'.setting.now

/-- **How two plays stand to each other**, of which the second has the longer wait: they
are abreast, or have parted, or the second has broken down. -/
def Linked (T T' : Duration) (p p' : Play) : Prop :=
  (∃ v, p' = p.vary v ∧ Abreast T T' p.setting.exchange v) ∨ Parted p p' ∨
    p'.setting.exchange.stage = .brokenDown

section Linked
variable {T T' : Duration} {p' : Play} {v : Variant}

/-- Plays that have parted do not meet again. -/
theorem parted_next (h : p.Punctual clock) (h' : p'.Punctual clock) (hp : Parted p p')
    (receiverFirst : Bool) :
    Parted (p.next clock receiverFirst) (p'.next clock receiverFirst) := by
  obtain ⟨hsettles, hheard, hnow⟩ := settles_next h hp.settles receiverFirst
  obtain ⟨hmore, hlater⟩ := grows_next h' receiverFirst
  refine ⟨hsettles, ?_, ?_⟩
  · rw [hheard]
    exact hp.heard.trans hmore
  · rw [hnow]
    exact Nat.le_trans hp.now hlater

/-- A variant that is abreast has come to a verdict if the exchange has. -/
theorem verdict?_vary {e : Exchange} (h : Abreast T T' e v) :
    (e.vary v).verdict?.isSome = e.verdict?.isSome := by
  have hstage : (e.vary v).stage = v.stage := rfl
  unfold verdict?
  cases h with
  | undecided hs _ _ _ => rw [hstage, hs]
  | deciding hs hs' _ => rw [hstage, hs, hs']
  | releasing hs hs' => rw [hstage, hs, hs']
  | concluded hs hs' _ =>
    rw [hstage, hs, hs']
    rfl

theorem verdict?_vary_none {e : Exchange} (h : Abreast T T' e v) (ho : e.verdict? = none) :
    (e.vary v).verdict? = none := by
  have hsame := verdict?_vary h
  rw [ho] at hsame
  exact Option.isNone_iff_eq_none.mp (Option.isSome_eq_false_iff.mp hsame)

/-- What comes from the script comes to both. -/
theorem linked_takes (h : Abreast T T' p.setting.exchange v) (c : Cue) (rest : Script) :
    Linked T T' ⟨p.setting.take c, rest⟩ ⟨(p.vary v).setting.take c, rest⟩ := by
  have he : (p.vary v).setting.take c = (p.setting.take c).vary v := p.setting.vary_take v c
  exact .inl ⟨v, by rw [he]; rfl, Setting.abreast_take h c⟩

/-- Whoever hears something, the other hears it too. -/
theorem linked_receives (h : Abreast T T' p.setting.exchange v) :
    Linked T T' { p with setting := p.setting.act .receive }
      { p.vary v with setting := (p.vary v).setting.act .receive } := by
  obtain ⟨v', he, hbreast⟩ := Setting.act_receive_vary h
  have he' : (p.vary v).setting.act .receive = (p.setting.act .receive).vary v' := he
  exact .inl ⟨v', by rw [he']; rfl, hbreast⟩

/-- The callers take a turn together, if both decide at the same time. -/
theorem linked_calls (hle : T ≤ T') (h : Abreast T T' p.setting.exchange v)
    (hw : InStep p.setting.exchange v p.setting.now) :
    Linked T T' { p with setting := p.setting.act .call }
      { p.vary v with setting := (p.vary v).setting.act .call } := by
  obtain ⟨v', he, hstands⟩ := Setting.act_call_vary hle h hw
  have he' : (p.vary v).setting.act .call = (p.setting.act .call).vary v' := he
  rcases hstands with hbreast | hbroken
  · exact .inl ⟨v', by rw [he']; rfl, hbreast⟩
  · refine .inr (.inr ?_)
    rw [he']
    exact hbroken

/-- One that wakes at its deadline while the other sleeps on is done with waiting. -/
theorem elapses_of_wakes {e : Exchange} {now deadline deadline' : Instant}
    (hle : deadline ≤ deadline') (hne : e.wake? now deadline' ≠ e.wake? now deadline) :
    e.Elapses now deadline ∧ e.wake? now deadline' = none := by
  by_cases hc : e.cancelled = true
  · exact absurd (by simp [wake?, hc]) hne
  by_cases hr : ∃ ending, e.receiver = .over ending
  · obtain ⟨ending, hr⟩ := hr
    exact absurd (by simp [wake?, hc, hr]) hne
  · have huncancelled : e.cancelled = false := by simpa using hc
    have hunended : ∀ ending, e.receiver ≠ .over ending := fun ending h => hr ⟨ending, h⟩
    have huncut := wake?_uncut huncancelled hunended now
    rw [huncut, huncut] at hne
    by_cases hd' : deadline' ≤ now
    · have hd : deadline ≤ now := Nat.le_trans hle hd'
      simp [hd, hd'] at hne
    · by_cases hd : deadline ≤ now
      · exact ⟨⟨huncancelled, hunended, hd⟩, by rw [huncut, if_neg hd']⟩
      · simp [hd, hd'] at hne

/-- **They part when the shorter wait is up** and the longer is not. -/
theorem linked_parts (h' : (p.vary v).Punctual clock) (h : Abreast T T' p.setting.exchange v)
    (hd : p.due? = none) {deadline deadline' : Instant}
    (hs : p.setting.exchange.stage = .deciding deadline) (hs' : v.stage = .deciding deadline')
    (hdeadline : deadline ≤ deadline')
    (hne : p.setting.exchange.wake? p.setting.now deadline' ≠
      p.setting.exchange.wake? p.setting.now deadline) (receiverFirst : Bool) :
    Linked T T' (p.next clock receiverFirst) ((p.vary v).next clock receiverFirst) := by
  obtain ⟨he, hsleeps⟩ := elapses_of_wakes hdeadline hne
  have ho : p.setting.exchange.verdict? = none := by simp [verdict?, hs]
  cases hm : p.mover? receiverFirst with
  | none => cases (mover?_eq_none hm).1.symm.trans (call_of_elapses hs he)
  | some m =>
    rw [next_of_mover ho hd hm]
    rcases mover?_cases hm with ⟨rfl, -⟩ | ⟨rfl, f, hf⟩
    · -- the shorter wait ends here, whatever the other does
      obtain ⟨hsettles, hheard, hnow⟩ := settles_decision hs he
      obtain ⟨hmore, hlater⟩ := grows_next h' receiverFirst
      refine .inr (.inl ⟨hsettles, ?_, ?_⟩)
      · show (p.setting.act .call).heard <+: _
        rw [hheard]
        exact hmore
      · show (p.setting.act .call).now ≤ _
        rw [hnow]
        exact hlater
    · -- the receiver goes first, in both
      have hcall' : (p.vary v).setting.exchange.call (p.vary v).setting.now = none :=
        call_of_asleep hs' hsleeps
      have hreceive' : ((p.vary v).setting.exchange.receive (p.vary v).setting.now).isSome = true :=
        (isSome_receive_vary p.setting.exchange v p.setting.now).trans (by simp [hf])
      have ho' : (p.vary v).setting.exchange.verdict? = none := verdict?_vary_none h ho
      have hm' : (p.vary v).mover? receiverFirst = some .receive := by
        rw [mover?_eq, hcall', hreceive']
        rfl
      rw [next_of_mover ho' hd hm']
      exact linked_receives h

/-- The longer wait does not wake earlier. -/
theorem wakesAt_vary (h : Abreast T T' p.setting.exchange v) {u' : Instant}
    (hu : (p.vary v).wakesAt clock = some u') : ∃ u, p.wakesAt clock = some u ∧ u ≤ u' := by
  have hstage : (p.vary v).setting.exchange.stage = v.stage := rfl
  have hnow : (p.vary v).setting.now = p.setting.now := rfl
  unfold wakesAt Exchange.wakesAt at hu ⊢
  rw [hstage, hnow] at hu
  cases h with
  | undecided hs _ _ _ =>
    rw [hs] at hu
    exact ⟨u', hu, Nat.le_refl _⟩
  | deciding hs hs' hle =>
    rw [hs'] at hu
    rw [hs]
    obtain rfl := Option.some.inj hu
    exact ⟨_, rfl, Clock.wakes_mono hle⟩
  | releasing _ hs' | concluded _ hs' _ =>
    rw [hs'] at hu
    cases hu

/-- **When there is nothing to do they wait together**, or the shorter wait is up. -/
theorem linked_waits (h : p.Punctual clock) (h' : (p.vary v).Punctual clock)
    (ha : Abreast T T' p.setting.exchange v) (ho : p.setting.exchange.verdict? = none)
    (hd : p.due? = none) (hm : p.mover? receiverFirst = none)
    (hm' : (p.vary v).mover? receiverFirst = none) :
    Linked T T' (p.next clock receiverFirst) ((p.vary v).next clock receiverFirst) := by
  have ho' : (p.vary v).setting.exchange.verdict? = none := verdict?_vary_none ha ho
  obtain ⟨t, hn⟩ := h.nextMoment_of_idle ho hm
  obtain ⟨t', hn'⟩ := h'.nextMoment_of_idle ho' hm'
  have hle : t ≤ t' := by
    rcases nextMoment_mem hn' with ⟨entry, hmem, rfl⟩ | hwakes
    · exact (nextMoment_le hn).1 entry hmem
    · obtain ⟨u, hu, hle⟩ := wakesAt_vary ha hwakes
      exact Nat.le_trans ((nextMoment_le hn).2 u hu) hle
  rw [next_of_wait ho hd hm hn, next_of_wait ho' hd hm' hn']
  by_cases hsame : t' = t
  · subst hsame
    exact .inl ⟨v, rfl, ha⟩
  · -- the script has nothing at this moment, so it is the deadline of the shorter wait
    have hlt : t < t' := Nat.lt_of_le_of_ne hle fun heq => hsame (congrArg Instant.mk heq.symm)
    have hlater : ∀ entry ∈ p.script.head?, t < entry.1 := fun entry hmem =>
      Nat.lt_of_lt_of_le hlt ((nextMoment_le hn').1 entry hmem)
    have hwakes : p.wakesAt clock = some t := by
      rcases nextMoment_mem hn with ⟨entry, hmem, rfl⟩ | hwakes
      · exact absurd (hlater entry hmem) (Nat.lt_irrefl _)
      · exact hwakes
    cases ha with
    | undecided hs _ _ _ =>
      have hwakes' : (p.vary v).wakesAt clock = some t := by
        rw [← hwakes]
        unfold wakesAt Exchange.wakesAt
        exact congrArg _ (by rw [show (p.vary v).setting.exchange.stage = v.stage from rfl, hs])
      exact absurd ((nextMoment_le hn').2 t hwakes') (Nat.not_le.mpr hlt)
    | @deciding deadline _ hs _ _ =>
      obtain ⟨hc, hr⟩ := mover?_eq_none hm
      obtain ⟨deadline', hi⟩ := h.idles ho hc hr
      obtain rfl : deadline = deadline' := by
        rcases hi.waiting with hs' | hs'
        · cases hs.symm.trans hs'
        · exact Stage.deciding.inj (hs.symm.trans hs')
      have hdue : deadline ≤ t := by
        unfold wakesAt Exchange.wakesAt at hwakes
        rw [hs] at hwakes
        obtain rfl := Option.some.inj hwakes
        exact clock.deadline_le_wakes _ _
      refine .inr (.inl ⟨settles_wait h hi hs hr hn hdue hlater, List.prefix_refl _, ?_⟩)
      exact Nat.add_le_add_left (Nat.sub_le_sub_right hle _) _
    | releasing hs _ | concluded hs _ _ =>
      unfold wakesAt Exchange.wakesAt at hwakes
      rw [hs] at hwakes
      cases hwakes

/-- With nothing due they move together, or wait together, or part. -/
theorem linked_undue (hle : T ≤ T') (h : p.Punctual clock) (h' : (p.vary v).Punctual clock)
    (ha : Abreast T T' p.setting.exchange v) (ho : p.setting.exchange.verdict? = none)
    (hd : p.due? = none) (receiverFirst : Bool) :
    Linked T T' (p.next clock receiverFirst) ((p.vary v).next clock receiverFirst) := by
  by_cases hw : InStep p.setting.exchange v p.setting.now
  · have hsame : (p.vary v).mover? receiverFirst = p.mover? receiverFirst :=
      mover?_congr (call_vary hle ha hw).isSome (isSome_receive_vary _ _ _)
    cases hm : p.mover? receiverFirst with
    | none => exact linked_waits h h' ha ho hd hm (hsame.trans hm)
    | some m =>
      have ho' : (p.vary v).setting.exchange.verdict? = none := verdict?_vary_none ha ho
      have hd' : (p.vary v).due? = none := hd
      rw [next_of_mover ho hd hm, next_of_mover ho' hd' (hsame.trans hm)]
      rcases mover?_cases hm with ⟨rfl, -⟩ | ⟨rfl, -⟩
      · exact linked_calls hle ha hw
      · exact linked_receives ha
  · simp only [InStep, not_forall] at hw
    obtain ⟨deadline, deadline', hs, hs', hne⟩ := hw
    have hdeadline : deadline ≤ deadline' := by
      cases ha with
      | undecided hsame _ _ _ =>
        obtain rfl := Stage.deciding.inj (hs'.symm.trans (hsame.trans hs))
        exact Nat.le_refl _
      | deciding hs₁ hs₂ hle =>
        obtain rfl := Stage.deciding.inj (hs.symm.trans hs₁)
        obtain rfl := Stage.deciding.inj (hs'.symm.trans hs₂)
        exact hle
      | releasing hs₁ _ | concluded hs₁ _ _ => cases hs.symm.trans hs₁
    exact linked_parts h' ha hd hs hs' hdeadline hne receiverFirst

/-- **Whatever happens next, the two stay linked.** -/
theorem linked_next (hle : T ≤ T') (h : p.Punctual clock) (h' : p'.Punctual clock)
    (hl : Linked T T' p p') (receiverFirst : Bool) :
    Linked T T' (p.next clock receiverFirst) (p'.next clock receiverFirst) := by
  rcases hl with ⟨v, rfl, ha⟩ | hparted | hbroken
  · cases ho : p.setting.exchange.verdict? with
    | some verdict =>
      have hv : p.setting.exchange.verdict?.isSome = true := by simp [ho]
      rw [next_of_verdict hv, next_of_verdict ((verdict?_vary ha).trans hv)]
      exact .inl ⟨v, rfl, ha⟩
    | none =>
      have ho' : (p.vary v).setting.exchange.verdict? = none := verdict?_vary_none ha ho
      have hdue : (p.vary v).due? = p.due? := rfl
      cases hd : p.due? with
      | some entry =>
        obtain ⟨c, rest⟩ := entry
        rw [next_of_due ho hd, next_of_due ho' (hdue.trans hd)]
        exact linked_takes ha c rest
      | none => exact linked_undue hle h h' ha ho hd receiverFirst
  · exact .inr (.inl (parted_next h h' hparted receiverFirst))
  · have hv : p'.setting.exchange.verdict?.isSome = true := by simp [verdict?, hbroken]
    rw [next_of_verdict hv]
    exact .inr (.inr hbroken)

theorem linked_after (hle : T ≤ T') (h : p.Punctual clock) (h' : p'.Punctual clock)
    (hl : Linked T T' p p') (choices : Nat → Bool) (n : Nat) :
    Linked T T' (p.after clock choices n) (p'.after clock choices n) := by
  induction n with
  | zero => exact hl
  | succ n ih => exact linked_next hle (h.stays choices n) (h'.stays choices n) ih (choices n)

end Linked

/-! ## What comes of it -/

/-- The exchange comes to this outcome. -/
def ComesTo (p : Play) (clock : Clock) (choices : Nat → Bool) (o : Outcome) : Prop :=
  ∃ n, (p.after clock choices n).setting.exchange.outcome? = some o

section Outcomes
variable {choices : Nat → Bool} {o : Outcome}

/-- And there it stays. -/
theorem ComesTo.stays (h : p.ComesTo clock choices o) :
    ∃ n, ∀ k, (p.after clock choices (n + k)).setting.exchange.stage = .over o := by
  obtain ⟨n, ho⟩ := h
  have hs : (p.after clock choices n).setting.exchange.stage = .over o :=
    Setting.stage_of_outcome ho
  have hv : (p.after clock choices n).setting.exchange.verdict? =
      some (.concluded o.termination o.elapsed) := by simp [verdict?, hs]
  refine ⟨n, fun k => ?_⟩
  rw [after_over hv]
  exact hs

theorem startedAt_after (h : p.Punctual clock) (choices : Nat → Bool) (n : Nat) :
    (p.after clock choices n).setting.exchange.startedAt = p.setting.exchange.startedAt := by
  induction n with
  | zero => rfl
  | succ n ih =>
    rw [← ih]
    cases hv : (p.after clock choices n).setting.exchange.verdict? with
    | some v =>
      have hsame : p.after clock choices (n + 1) = p.after clock choices n :=
        next_of_verdict (by simp [hv])
      rw [hsame]
    | none => exact startedAt_advance (h.stays choices n) ((h.stays choices n).advances hv _)

/-- The time that an outcome reports has passed. -/
theorem elapsed_after (h : p.Punctual clock) (hv : p.setting.exchange.verdict? = none) (n : Nat)
    (hs : (p.after clock choices n).setting.exchange.stage = .over o) :
    o.elapsed = p.setting.exchange.startedAt.elapsed (p.after clock choices n).setting.now := by
  induction n with
  | zero =>
    have hs' : p.setting.exchange.stage = .over o := hs
    simp [verdict?, hs'] at hv
  | succ n ih =>
    have hn := h.stays choices n
    have hstarted := startedAt_after h choices (n + 1)
    cases hv' : (p.after clock choices n).setting.exchange.verdict? with
    | some v =>
      have hsame : p.after clock choices (n + 1) = p.after clock choices n :=
        next_of_verdict (by simp [hv'])
      rw [hsame] at hs ⊢
      exact ih hs
    | none =>
      have hverdict : (p.after clock choices (n + 1)).setting.exchange.verdict? =
          some (.concluded o.termination o.elapsed) := by simp [verdict?, hs]
      obtain ⟨-, hends⟩ := verdict_outlook hv' (hn.advances hv' (choices n)) hverdict true true
      have houtlook : (p.after clock choices (n + 1)).outlook clock true true =
          ((p.after clock choices (n + 1)).setting.now, some o.termination) := by
        unfold outlook ahead
        rw [hs]
      have hends' : verdictOf (p.after clock choices (n + 1)).setting.exchange.startedAt
          ((p.after clock choices (n + 1)).outlook clock true true) =
            .concluded o.termination o.elapsed := hends
      rw [houtlook, hstarted] at hends'
      exact (Verdict.concluded.inj hends').2.symm

end Outcomes

end Play

/-- An exchange selects from what it has heard. -/
theorem law_of_faithful {x : Setting} {o : Outcome} (h : x.Faithful)
    (hs : x.exchange.stage = .over o) : SelectionLaw x.batches o := by
  obtain ⟨hselected, hrevisions⟩ := h.selects hs
  exact selectionLaw_of_buffer hselected hrevisions

/-- Whoever has heard more has taken more batches. -/
theorem batches_subset {x x' : Setting} (h : x.heard <+: x'.heard) : x.batches ⊆ x'.batches :=
  ((h.map Prod.snd).filterMap Reply.batch?).subset

/-- **Of two linked plays that are over, the longer wait was not worse.** -/
theorem noWorse_of_linked {T T' : Duration} {p p' : Play} {o o' : Outcome}
    (hl : Play.Linked T T' p p') (h : p.setting.Faithful) (h' : p'.setting.Faithful)
    (hs : p.setting.exchange.stage = .over o) (hs' : p'.setting.exchange.stage = .over o')
    (he : p.setting.now ≤ p'.setting.now → o.elapsed ≤ o'.elapsed) : NoWorse o o' := by
  rcases hl with ⟨v, rfl, ha⟩ | hparted | hbroken
  · have hv : v.stage = .over o' := hs'
    cases ha with
    | concluded hs₁ hs₂ ho =>
      obtain rfl := Stage.over.inj (hs.symm.trans hs₁)
      obtain rfl := Stage.over.inj (hv.symm.trans hs₂)
      exact noWorse_of_same ho
    | undecided _ hn _ _ => simp [Undecided, hs] at hn
    | deciding hs₁ _ _ | releasing hs₁ _ => cases hs.symm.trans hs₁
  · have ht : o.termination = .decisionTimeout := by
      cases hparted.settles with
      | concluded hs₁ ho =>
        obtain rfl := Stage.over.inj (hs.symm.trans hs₁)
        exact ho
      | elapses hs₁ _ _ _ | releasing hs₁ _ => cases hs.symm.trans hs₁
    exact noWorse_of_taken (law_of_faithful h hs) (law_of_faithful h' hs')
      (batches_subset hparted.heard) (he hparted.now) ht
  · cases hs'.symm.trans hbroken

/-! ## Two timeouts -/

/-- The same exchange, to draw its timeout from another window and another source. -/
def drawing (e : Exchange) (window : DecisionWindow) (source : Random.Source) : Exchange :=
  { e with params := { e.params with window }, source }

theorem Resumed.drawing {e : Exchange} (h : e.Resumed) (window : DecisionWindow)
    (source : Random.Source) : (e.drawing window source).Resumed :=
  ⟨h.resuming, h.absent, h.empty, h.uncancelled, h.unstopped, ⟨h.accepts.present, h.accepts.room⟩,
    h.silent, h.bound, h.read⟩

/-- Whoever goes on has not come to a verdict. -/
theorem Resumed.verdict? {e : Exchange} (h : e.Resumed) : e.verdict? = none := by
  simp [Exchange.verdict?, h.resuming]

/-- **In lockstep nothing is lost by waiting**, whatever the script has for the two. -/
theorem noWorse_in_lockstep {clock : Clock} {e : Exchange} (h : e.Resumed) {start : Instant}
    {script : Script} (horder : InOrder start script) (hstart : clock.Shows start)
    (hshows : ∀ entry ∈ script, clock.Shows entry.1) {choices : Nat → Bool}
    {window : DecisionWindow} {source : Random.Source} {T T' : Duration}
    (hT : e.timeout? = some T) (hT' : (e.drawing window source).timeout? = some T')
    (hle : T ≤ T') {o o' : Outcome}
    (ho : (Play.ofResumed e start script).ComesTo clock choices o)
    (ho' : (Play.ofResumed (e.drawing window source) start script).ComesTo clock choices o') :
    NoWorse o o' := by
  have h' : (e.drawing window source).Resumed := h.drawing window source
  have hp := Play.punctual_ofResumed h horder hstart hshows
  have hp' := Play.punctual_ofResumed h' horder hstart hshows
  have hlinked : Play.Linked T T' (Play.ofResumed e start script)
      (Play.ofResumed (e.drawing window source) start script) := by
    have hn : e.Undecided := by simp [Undecided, h.resuming]
    exact .inl ⟨⟨window, source, e.stage, e.drawn, e.journal⟩, rfl, .undecided rfl hn hT hT'⟩
  -- compare the two when both are over
  obtain ⟨n, hover⟩ := ho.stays
  obtain ⟨n', hover'⟩ := ho'.stays
  have hs := hover n'
  have hs' := hover' n
  rw [Nat.add_comm] at hs'
  refine noWorse_of_linked (Play.linked_after hle hp hp' hlinked choices (n + n'))
    (hp.stays choices _).faithful (hp'.stays choices _).faithful hs hs' fun hnow => ?_
  rw [Play.elapsed_after hp h.verdict? _ hs, Play.elapsed_after hp' h'.verdict? _ hs']
  exact Nat.sub_le_sub_right hnow _

end ProgressiveSearch.Exchange
