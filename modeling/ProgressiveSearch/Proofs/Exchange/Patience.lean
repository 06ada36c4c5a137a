import ProgressiveSearch.Proofs.Exchange.Earshot
import ProgressiveSearch.Proofs.Exchange.Lockstep

/-! # Waiting longer is never worse

Two exchanges that differ in the timeout that they draw go on from their first context
against the same script, and the tasks of each take their turns in an order of their
own.  If the call is not given up and its requests are taken there are two ways to come
to an outcome (`Story`): the receiver has heard everything and come to its end, or the
exchange has decided, with a first part heard of what there is to hear.

The moment of the decision (`decidesAt?`) cuts that part off, save for what comes at this
very moment, and the longer wait decides later.  Only if both decide at one moment at
which the script has something for them (`Tied`) it matters who goes first; then they are
told to go in lockstep.  So the longer wait selects from all that the shorter one has
selected from, and if the shorter one has not come to decide the two end in the same way
(`patience_pays`).
-/
namespace ProgressiveSearch.Exchange

/-! ## When an exchange decides -/

/-- When an exchange that draws the timeout `T` decides, if nothing cuts its waits short. -/
def decidesAt? (clock : Clock) (e : Exchange) (start : Instant) (T : Duration) : Option Instant :=
  e.firstSent.bind fun sent =>
    (sent.after? e.params.contextDelay).bind fun pause =>
      let second := clock.wakes start pause
      (second.after? T).map (clock.wakes second)

/-- Exchanges that draw these timeouts decide at one moment, at which a reply comes or
the replies are closed. -/
def Tied (clock : Clock) (e : Exchange) (start : Instant) (script : Script) (T T' : Duration) :
    Prop :=
  ∃ t c, e.decidesAt? clock start T = some t ∧ e.decidesAt? clock start T' = some t ∧
    c ≠ .pick ∧ (t, c) ∈ script

section Decision
variable {clock : Clock} {e : Exchange} {start t u : Instant} {script : Script}
  {T T' : Duration} {x : Prospect} {prompt first second : Bool} {termination : Termination}

/-- Whoever waits longer does not decide earlier. -/
theorem decidesAt?_mono (hle : T ≤ T') {t' : Instant} (h' : e.decidesAt? clock start T' = some t') :
    ∃ t, e.decidesAt? clock start T = some t ∧ t ≤ t' := by
  unfold decidesAt? at h' ⊢
  obtain ⟨sent, hsent, h'⟩ := Option.bind_eq_some_iff.mp h'
  obtain ⟨pause, hpause, h'⟩ := Option.bind_eq_some_iff.mp h'
  obtain ⟨deadline', hd', rfl⟩ := Option.map_eq_some_iff.mp h'
  simp only [hsent, Option.bind_some, hpause]
  cases hd : (clock.wakes start pause).after? T with
  | none => cases (after?_eq_none hle hd).symm.trans hd'
  | some deadline => exact ⟨_, rfl, Clock.wakes_mono (after?_le hle hd hd')⟩

/-- What cuts the wait of a call short that is not given up is the end of its receiver, -/
theorem ended_of_cut? (hc : x.cancel = none) (h : x.cut? prompt u = some (t, termination)) :
    t ≤ u ∧ ∃ ending, x.ending = some (t, ending) ∧ termination = ending.termination := by
  have hcancel : x.cancelledBy u = none := by
    unfold Prospect.cancelledBy
    rw [hc]
    rfl
  unfold Prospect.cut? at h
  rw [hcancel] at h
  cases hends : x.endedBy prompt u with
  | none => simp [hends] at h
  | some entry =>
    obtain ⟨v, ending⟩ := entry
    simp only [hends, Option.some.injEq, Prod.mk.injEq] at h
    obtain ⟨rfl, rfl⟩ := h
    obtain ⟨hending, hby⟩ := endedBy_eq_some.mp hends
    refine ⟨?_, ending, hending, rfl⟩
    rcases hby with hlt | ⟨rfl, -⟩
    · exact Nat.le_of_lt hlt
    · exact Nat.le_refl _

/-- and if nothing does, the receiver comes to its end later, if at all. -/
theorem le_of_cut?_eq_none (h : x.cut? prompt u = none) : ∀ entry ∈ x.ending, u ≤ entry.1 := by
  rintro ⟨v, ending⟩ hending
  refine Nat.le_of_not_lt fun hlt => ?_
  have hends : x.endedBy prompt u = some (v, ending) := endedBy_eq_some.mpr ⟨hending, .inl hlt⟩
  unfold Prospect.cut? at h
  rw [hends] at h
  cases hcancel : x.cancelledBy u with
  | none => simp [hcancel] at h
  | some _ => simp [hcancel] at h

/-- **The two ways in which a live exchange is foretold to come to an outcome.** -/
theorem foretold_cases (hT : e.timeout? = some T)
    (hquiet : ∀ entry ∈ script, entry.2 ≠ .cancel ∧ entry.2 ≠ .refuse)
    (hsent : e.firstSent.isSome = true)
    (h : foretold clock e start script first second = (t, some termination)) :
    (∃ ending, endOf script = some (t, ending) ∧ termination = ending.termination ∧
        ∀ u ∈ e.decidesAt? clock start T, t ≤ u) ∨
      termination = .decisionTimeout ∧ e.decidesAt? clock start T = some t ∧
        ∀ entry ∈ endOf script, t ≤ entry.1 := by
  have hcancel : (prospect script).cancel = none := by
    refine Option.eq_none_iff_forall_ne_some.mpr fun u hu => ?_
    exact (hquiet _ (mem_of_momentOf hu)).1 rfl
  have hrefused : ∀ u, refusedBy script u = false := by
    intro u
    have hnone : momentOf .refuse script = none :=
      Option.eq_none_iff_forall_ne_some.mpr fun v hv => (hquiet _ (mem_of_momentOf hv)).2 rfl
    simp [refusedBy, hnone]
  obtain ⟨sent, hf⟩ := Option.isSome_iff_exists.mp hsent
  unfold foretold Prospect.afterResuming at h
  unfold decidesAt?
  simp only [hf, Option.bind_some] at h ⊢
  cases hpause : sent.after? e.params.contextDelay with
  | none => simp [hpause] at h
  | some pause =>
    simp only [hpause, Option.bind_some, Prospect.afterPausing] at h ⊢
    split at h
    · -- the receiver comes to its end before the second context
      rename_i hcut
      obtain ⟨rfl, ht⟩ := Prod.mk.inj h
      obtain rfl := Option.some.inj ht
      obtain ⟨hle, ending, hending, hterm⟩ := ended_of_cut? hcancel hcut
      refine .inl ⟨ending, hending, hterm, fun u hu => ?_⟩
      obtain ⟨deadline, -, rfl⟩ := Option.map_eq_some_iff.mp hu
      exact Nat.le_trans hle (clock.le_wakes _ _)
    · simp only [Prospect.afterOffering, hrefused, Bool.false_eq_true, if_false, hT,
        Option.bind_some] at h
      cases hd : (clock.wakes start pause).after? T with
      | none => simp [hd] at h
      | some deadline =>
        simp only [hd, Prospect.afterDeciding, Option.map_some] at h ⊢
        split at h
        · rename_i hcut
          obtain ⟨rfl, ht⟩ := Prod.mk.inj h
          obtain rfl := Option.some.inj ht
          obtain ⟨hle, ending, hending, hterm⟩ := ended_of_cut? hcancel hcut
          refine .inl ⟨ending, hending, hterm, fun u hu => ?_⟩
          obtain rfl := Option.some.inj hu
          exact hle
        · rename_i hcut
          obtain ⟨rfl, ht⟩ := Prod.mk.inj h
          obtain rfl := Option.some.inj ht
          exact .inr ⟨rfl, rfl, le_of_cut?_eq_none hcut⟩

end Decision

/-! ## How an outcome comes about -/

/-- The batches among some replies. -/
def batchesOf (heard : List (Instant × Reply)) : List Batch :=
  (heard.map Prod.snd).filterMap Reply.batch?

/-- An outcome is selected from these replies. -/
structure Selects (heard : List (Instant × Reply)) (o : Outcome) : Prop where
  selected : o.selected = (RevisionBuffer.ofList (batchesOf heard)).latest?
  revisions : o.revisions = (RevisionBuffer.ofList (batchesOf heard)).revisions

/-- **How a live exchange comes to an outcome** that has heard this much. -/
inductive Story (clock : Clock) (e : Exchange) (start : Instant) (script : Script) (T : Duration)
    (o : Outcome) (past : List (Instant × Reply)) : Prop
  | cut {t : Instant} {ending : ReceiveEnd} (hend : endOf script = some (t, ending))
      (ht : o.termination = ending.termination) (he : o.elapsed = e.startedAt.elapsed t)
      (hd : ∀ u ∈ e.decidesAt? clock start T, t ≤ u) (hall : past = audible (arrivals script))
  | decided {t : Instant} {rest : List (Instant × Reply)}
      (hd : e.decidesAt? clock start T = some t) (ht : o.termination = .decisionTimeout)
      (he : o.elapsed = e.startedAt.elapsed t) (hend : ∀ entry ∈ endOf script, t ≤ entry.1)
      (hall : audible (arrivals script) = past ++ rest) (hpast : ∀ entry ∈ past, entry.1 ≤ t)
      (hrest : ∀ entry ∈ rest, t ≤ entry.1)

section Stories
variable {clock : Clock} {e : Exchange} {start : Instant} {script : Script} {T T' : Duration}
  {o o' : Outcome} {past past' : List (Instant × Reply)}

/-- Every outcome of a live exchange has such a story. -/
theorem story_of_outcome (h : e.Resumed) (horder : InOrder start script)
    (hstart : clock.Shows start) (hshows : ∀ entry ∈ script, clock.Shows entry.1)
    (hquiet : ∀ entry ∈ script, entry.2 ≠ .cancel ∧ entry.2 ≠ .refuse)
    (hsent : e.firstSent.isSome = true) (hT : e.timeout? = some T) {choices : Nat → Bool}
    (ho : (Play.ofResumed e start script).ComesTo clock choices o) :
    ∃ past, Story clock e start script T o past ∧ Selects past o := by
  obtain ⟨n, hover⟩ := ho.stays
  have hs : ((Play.ofResumed e start script).after clock choices n).setting.exchange.stage =
      .over o := hover 0
  have hpunctual := Play.punctual_ofResumed h horder hstart hshows
  -- when and why it ends
  obtain ⟨first, second, -, hends, -⟩ :=
    ends_as_foretold clock h horder hstart hshows choices
  have hv : ((Play.ofResumed e start script).after clock choices n).setting.exchange.verdict? =
      some (.concluded o.termination o.elapsed) := by simp [Exchange.verdict?, hs]
  obtain ⟨hnow, hverdict⟩ := (hends _ _).mp ⟨n, hv, rfl⟩
  generalize hy : foretold clock e start script first second = y at hnow hverdict
  obtain ⟨t, termination⟩ := y
  cases termination with
  | none => cases hverdict
  | some termination =>
    obtain ⟨hterm, helapsed⟩ := Verdict.concluded.inj hverdict
    -- what it has heard by then
    obtain ⟨rest, ⟨past, hall, hpast, hcome⟩, hnone, hlater⟩ :=
      Play.closed_after h hpunctual hsent hquiet hs
    rw [hnow] at hcome hlater
    refine ⟨past, ?_, ?_⟩
    · rcases foretold_cases hT hquiet hsent hy with
        ⟨ending, hending, hby, hdecides⟩ | ⟨rfl, hdecides, hending⟩
      · have hby' : o.termination = ending.termination := hterm.trans hby
        have hrest : rest = [] := hnone (by cases ending <;> simp [hby', ReceiveEnd.termination])
        rw [hrest, List.append_nil] at hall
        exact .cut hending hby' helapsed hdecides hall.symm
      · exact .decided hdecides hterm helapsed hending hall hcome hlater
    · obtain ⟨hselected, hrevisions⟩ := (hpunctual.stays choices n).faithful.selects hs
      have hbatches : batchesOf past =
          ((Play.ofResumed e start script).after clock choices n).setting.batches :=
        congrArg (·.filterMap Reply.batch?) hpast
      rw [← hbatches] at hselected hrevisions
      exact ⟨hselected, hrevisions⟩

/-- Whoever has heard more has lost nothing. -/
theorem noWorse_of_heard (hs : Selects past o) (hs' : Selects past' o') (hmore : past <+: past')
    (he : o.elapsed ≤ o'.elapsed) (ht : o.termination = .decisionTimeout) : NoWorse o o' := by
  have hlaw := selectionLaw_of_buffer hs.selected hs.revisions
  have hlaw' := selectionLaw_of_buffer hs'.selected hs'.revisions
  exact noWorse_of_taken hlaw hlaw' ((hmore.map Prod.snd).filterMap Reply.batch?).subset he ht

/-- Of two first parts of a list in which the first does not come later, and the rest of
the second not earlier, the first is part of the second. -/
theorem prefix_of_moments {all rest rest' : List (Instant × Reply)} {t t' : Instant}
    (hall : all = past ++ rest) (hall' : all = past' ++ rest') (hpast : ∀ entry ∈ past, entry.1 ≤ t)
    (hrest' : ∀ entry ∈ rest', t' ≤ entry.1) (hle : t ≤ t') :
    past <+: past' ∨ t = t' ∧ ∃ r, (t, r) ∈ all := by
  have hprefix : past <+: all := hall ▸ List.prefix_append _ _
  have hprefix' : past' <+: all := hall' ▸ List.prefix_append _ _
  rcases List.prefix_or_prefix_of_prefix hprefix hprefix' with hp | ⟨more, rfl⟩
  · exact .inl hp
  · cases more with
    | nil => exact .inl (by simp)
    | cons entry more =>
      -- the first of what only one of them has heard came at the moment of both
      have hmem : entry ∈ past' ++ entry :: more := by simp
      have hrest : rest' = entry :: more ++ rest := by
        rw [hall, List.append_assoc] at hall'
        exact (List.append_cancel_left hall').symm
      have hearly : entry.1 ≤ t := hpast entry hmem
      have hlate : t' ≤ entry.1 := hrest' entry (by simp [hrest])
      have hsame : t = t' := Instant.le_antisymm hle (Nat.le_trans hlate hearly)
      have hat : entry.1 = t :=
        Instant.le_antisymm hearly (Nat.le_trans hle hlate)
      refine .inr ⟨hsame, entry.2, ?_⟩
      rw [← hat]
      exact hprefix.subset hmem

/-- **Of two exchanges that are not tied, the longer wait was not worse.** -/
theorem noWorse_of_stories (hle : T ≤ T') (hfree : ¬ Tied clock e start script T T')
    (h : Story clock e start script T o past) (h' : Story clock e start script T' o' past')
    (hs : Selects past o) (hs' : Selects past' o') : NoWorse o o' := by
  cases h with
  | @cut t ending hend ht he hd hall =>
    cases h' with
    | cut hend' ht' he' _ hall' =>
      obtain ⟨rfl, rfl⟩ := Prod.mk.inj (Option.some.inj (hend.symm.trans hend'))
      obtain rfl := hall.trans hall'.symm
      refine noWorse_of_same ?_
      have hselected := hs'.selected.trans hs.selected.symm
      have hrevisions := hs'.revisions.trans hs.revisions.symm
      have htermination := ht'.trans ht.symm
      have helapsed := he'.trans he.symm
      cases o
      cases o'
      simp_all
    | @decided t' rest' hd' _ _ hend' _ _ _ =>
      -- the longer wait would have heard the end, too, but at the moment of both
      obtain ⟨u, hu, hle'⟩ := decidesAt?_mono hle hd'
      have hafter : t ≤ u := hd u hu
      have hbefore : t' ≤ t := hend' _ hend
      obtain ⟨c, hm, hc⟩ := mem_of_endOf hend
      have hsame : u = t := Instant.le_antisymm (Nat.le_trans hle' hbefore) hafter
      have hsame' : t' = t := Instant.le_antisymm hbefore (Nat.le_trans hafter hle')
      refine absurd ⟨t, c, hsame ▸ hu, hsame' ▸ hd', ?_, hm⟩ hfree
      rintro rfl
      cases hc
  | @decided t rest hd ht he hend hall hpast hrest =>
    cases h' with
    | @cut t' ending' hend' _ he' _ hall' =>
      have hmore : past <+: past' := by
        rw [hall', hall]
        exact List.prefix_append _ _
      refine noWorse_of_heard hs hs' hmore ?_ ht
      rw [he, he']
      exact Nat.sub_le_sub_right (hend _ hend') _
    | @decided t' rest' hd' _ he' _ hall' _ hrest' =>
      obtain ⟨u, hu, hle'⟩ := decidesAt?_mono hle hd'
      obtain rfl := Option.some.inj (hd.symm.trans hu)
      rcases prefix_of_moments hall hall' hpast hrest' hle' with hmore | ⟨rfl, r, hm⟩
      · refine noWorse_of_heard hs hs' hmore ?_ ht
        rw [he, he']
        exact Nat.sub_le_sub_right hle' _
      · have harrives := mem_of_mem_arrivals (mem_of_mem_audible hm)
        exact absurd ⟨t, .bring r, hd, hd', nofun, harrives⟩ hfree

end Stories

/-! ## Two timeouts -/

/-- An exchange that draws the timeout `T` has to name a moment that is beyond the clock:
that of its second context, or at `t` that of its decision. -/
def Unnameable (e : Exchange) (T : Duration) (t : Instant) : Prop :=
  (∃ sent ∈ e.firstSent, sent.after? e.params.contextDelay = none) ∨ t.after? T = none

/-- Only over such a moment an exchange is foretold to break down. -/
theorem unnameable_of_foretold {clock : Clock} {e : Exchange} {start t : Instant} {script : Script}
    {first second : Bool} {T : Duration} (hT : e.timeout? = some T)
    (h : foretold clock e start script first second = (t, none)) : e.Unnameable T t := by
  have hdeciding : ∀ {x : Prospect} {u}, x.afterDeciding second u ≠ (t, none) := by
    intro x u hx
    unfold Prospect.afterDeciding at hx
    split at hx
    · cases hx
    · cases hx
  unfold foretold Prospect.afterResuming at h
  split at h
  · cases h
  · rename_i sent hsent
    split at h
    · rename_i hnone
      exact .inl ⟨sent, hsent, hnone⟩
    · unfold Prospect.afterPausing at h
      split at h
      · cases h
      · unfold Prospect.afterOffering at h
        split at h
        · cases h
        · split at h
          · rename_i hnone
            obtain ⟨rfl, -⟩ := Prod.mk.inj h
            rw [hT] at hnone
            exact .inr hnone
          · exact absurd h hdeciding

/-- **An exchange comes to an outcome**, unless it has to name such a moment. -/
theorem comes_to_outcome (clock : Clock) {e : Exchange} (h : e.Resumed) {start : Instant}
    {script : Script} (horder : InOrder start script) (hstart : clock.Shows start)
    (hshows : ∀ entry ∈ script, clock.Shows entry.1) (choices : Nat → Bool) {T : Duration}
    (hT : e.timeout? = some T) :
    (∃ o, (Play.ofResumed e start script).ComesTo clock choices o) ∨
      ∃ t, (Play.ofResumed e start script).EndsAt clock choices t .brokenDown ∧
        e.Unnameable T t := by
  have hpunctual := Play.punctual_ofResumed h horder hstart hshows
  obtain ⟨⟨t, termination⟩, ⟨first, second, -, hy⟩, hend⟩ :
      ∃ y, (Play.ofResumed e start script).Foresees clock False y ∧
        (Play.ofResumed e start script).EndsAt clock choices y.1 (verdictOf e.startedAt y) :=
    Play.ends_as_foreseen hpunctual h.verdict? False.elim
  rw [Play.outlook_ofResumed h] at hy
  cases termination with
  | none => exact .inr ⟨t, hend, unnameable_of_foretold hT hy⟩
  | some termination =>
    obtain ⟨n, hv, -⟩ := hend
    cases hs : ((Play.ofResumed e start script).after clock choices n).setting.exchange.stage with
    | «over» o => exact .inl ⟨o, n, by simp [outcome?, hs]⟩
    | _ => simp [verdict?, verdictOf, hs] at hv

/-- **Waiting longer is never worse.**  A call that is not given up, and whose requests are
taken, draws the timeout `T`, and the same call, from another window, the timeout `T'`,
which is not shorter.  They go on from their first context against the same script, the
tasks of each in an order of their own, unless the two are tied.  If both come to an
outcome then that of the longer wait is no worse; and each comes to one, unless it has to
name a moment that is beyond its clock. -/
theorem patience_pays (clock : Clock) {e : Exchange} (h : e.Resumed) {start : Instant}
    {script : Script} (horder : InOrder start script) (hstart : clock.Shows start)
    (hshows : ∀ entry ∈ script, clock.Shows entry.1)
    (hquiet : ∀ entry ∈ script, entry.2 ≠ .cancel ∧ entry.2 ≠ .refuse)
    (hsent : e.firstSent.isSome = true) {window : DecisionWindow} {source : Random.Source}
    {T T' : Duration} (hT : e.timeout? = some T)
    (hT' : (e.drawing window source).timeout? = some T') (hle : T ≤ T')
    (choices choices' : Nat → Bool)
    (htied : Tied clock e start script T T' → choices = choices') :
    let p := Play.ofResumed e start script
    let p' := Play.ofResumed (e.drawing window source) start script
    (∀ o o', p.ComesTo clock choices o → p'.ComesTo clock choices' o' → NoWorse o o') ∧
      ((∃ o, p.ComesTo clock choices o) ∨
        ∃ t, p.EndsAt clock choices t .brokenDown ∧ e.Unnameable T t) ∧
      ((∃ o', p'.ComesTo clock choices' o') ∨
        ∃ t, p'.EndsAt clock choices' t .brokenDown ∧ e.Unnameable T' t) := by
  intro p p'
  have h' : (e.drawing window source).Resumed := h.drawing window source
  refine ⟨fun o o' ho ho' => ?_, comes_to_outcome clock h horder hstart hshows choices hT,
    comes_to_outcome clock h' horder hstart hshows choices' hT'⟩
  by_cases htie : Tied clock e start script T T'
  · obtain rfl := htied htie
    exact noWorse_in_lockstep h horder hstart hshows hT hT' hle ho ho'
  · obtain ⟨past, hstory, hselects⟩ :=
      story_of_outcome h horder hstart hshows hquiet hsent hT ho
    obtain ⟨past', hstory', hselects'⟩ :=
      story_of_outcome h' horder hstart hshows hquiet hsent hT' ho'
    have hstory'' : Story clock e start script T' o' past' := by
      cases hstory' with
      | cut hend ht he hd hall => exact .cut hend ht he hd hall
      | decided hd ht he hend hall hpast hrest => exact .decided hd ht he hend hall hpast hrest
    exact noWorse_of_stories hle htie hstory hstory'' hselects hselects'

/-- A batch every now and then. -/
def trickle : Script :=
  let after (millis : Nat) := Instant.start.plus (.ofMillis millis)
  [(after 10, .bring (.batch ⟨[], 1⟩)), (after 60, .bring (.batch ⟨[], 2⟩)),
    (after 150, .bring (.batch ⟨[], 3⟩))]

/-- Whoever waits for two hundred milliseconds has three of them, and whoever waits for
sixty has two, though in one of them the receiver always goes first and in the other it
never does. -/
theorem patience_pays_trickle :
    let e := pausing (.ofMillis 50) (.ofMillis 60)
    let p := Play.ofResumed e .start trickle
    let p' := Play.ofResumed (e.drawing (.fixed (.ofMillis 200)) e.source) .start trickle
    e.Resumed ∧ InOrder .start trickle ∧ Clock.millis.Shows .start ∧
      (∀ entry ∈ trickle, Clock.millis.Shows entry.1) ∧ e.timeout? = some (.ofMillis 60) ∧
      (∀ entry ∈ trickle, entry.2 ≠ .cancel ∧ entry.2 ≠ .refuse) ∧
      ¬ Tied .millis e .start trickle (.ofMillis 60) (.ofMillis 200) ∧
      ∃ o o', p.ComesTo .millis (fun _ => true) o ∧ p'.ComesTo .millis (fun _ => false) o' ∧
        NoWorse o o' ∧ o.revisions = [1, 2] ∧ o'.revisions = [1, 2, 3] := by
  intro e p p'
  have hr : e.Resumed := resumed_pausing (.ofMillis 50) (.ofMillis 60)
  have horder : InOrder .start trickle := by decide
  have hstart : Clock.millis.Shows .start := by decide
  have hshows : ∀ entry ∈ trickle, Clock.millis.Shows entry.1 := by decide
  have hquiet : ∀ entry ∈ trickle, entry.2 ≠ .cancel ∧ entry.2 ≠ .refuse := by decide
  have hT : e.timeout? = some (.ofMillis 60) := by decide
  have hT' : (e.drawing (.fixed (.ofMillis 200)) e.source).timeout? = some (.ofMillis 200) := by
    decide
  have hle : Duration.ofMillis 60 ≤ .ofMillis 200 := by decide
  have hfree : ¬ Tied .millis e .start trickle (.ofMillis 60) (.ofMillis 200) := by
    rintro ⟨t, c, hd, hd', -⟩
    have hearly : e.decidesAt? .millis .start (.ofMillis 60) =
        some (Instant.start.plus (.ofMillis 110)) := by decide
    have hlate : e.decidesAt? .millis .start (.ofMillis 200) =
        some (Instant.start.plus (.ofMillis 250)) := by decide
    have hsame := (hearly.symm.trans hd).trans (hd'.symm.trans hlate)
    exact absurd hsame (by decide)
  obtain ⟨hnoWorse, -⟩ :=
    patience_pays .millis hr horder hstart hshows hquiet rfl hT hT' hle (fun _ => true)
      (fun _ => false) fun htied => absurd htied hfree
  have ho : p.ComesTo .millis (fun _ => true)
      ⟨some ⟨[], 2⟩, [1, 2], some (.ofMillis 60), .decisionTimeout, .ofMillis 110⟩ :=
    ⟨14, by decide⟩
  have ho' : p'.ComesTo .millis (fun _ => false)
      ⟨some ⟨[], 3⟩, [1, 2, 3], some (.ofMillis 200), .decisionTimeout, .ofMillis 250⟩ :=
    ⟨17, by decide⟩
  exact ⟨hr, horder, hstart, hshows, hT, hquiet, hfree, _, _, ho, ho', hnoWorse _ _ ho ho', rfl,
    rfl⟩

/-- Two that are tied: within a millisecond both decide when the third batch comes, and
only the shorter wait hears it if its receiver goes first. -/
example :
    let e := pausing (.ofMillis 50) ⟨59200000⟩
    let late : Script := [(Instant.start.plus (.ofMillis 110), .bring (.batch ⟨[], 3⟩))]
    let p := Play.ofResumed e .start late
    let p' := Play.ofResumed (e.drawing (.fixed ⟨59900000⟩) e.source) .start late
    (p.after .millis (fun _ => true) 20).setting.exchange.outcome?.map Outcome.revisions =
        some [3] ∧
      (p'.after .millis (fun _ => false) 20).setting.exchange.outcome?.map Outcome.revisions =
        some [] := by decide

end ProgressiveSearch.Exchange
