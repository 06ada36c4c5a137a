import ProgressiveSearch.Proofs.Session.Books
import ProgressiveSearch.Proofs.Session.Ending
import ProgressiveSearch.Proofs.Session.Shutdown

/-! # What becomes of the deferred revision

Once revision 2 has been queued revision 3 is owed.  A session that reports its
completion has queued it; one that fails tells in its journal, once, that the
deferred revision is called off, and over which failure (`calledOff`).

What a step calls off is told by the phase before it and by the result that it comes
to (`calledOff_step`).  The phase also tells how many batches have been queued
(`length_batches`), so that the two can be compared when the session ends
(`fate_exit`).

A session that breaks down neither queues revision 3 nor calls it off, but this is
before the revision has been scheduled: its moment is one that no clock can name
(`deferred_accounted_for`).
-/
namespace ProgressiveSearch.Session

/-- The failure over which an event calls the deferred revision off. -/
def Event.calledOff? : Event → Option Failure
  | .deferredCancelled f => some f
  | _ => none

/-- The failures over which the deferred revision has been called off. -/
def calledOff (s : Session) : List Failure := s.journal.filterMap Event.calledOff?

/-- What the step from `s` to `s'` calls off. -/
def callsOff (s s' : Session) : List Failure :=
  match s.phase, s'.activity with
  | .awaitingFinal _, .over (.failed f) => [f]
  | _, _ => []

/-- The batches queued so far. -/
def History.batches (h : History) : List Batch := h.written.filterMap Reply.batch?

/-- How many batches have been queued when a session comes to a phase. -/
def Phase.batches : Phase → Nat
  | .awaitingFirst => 0
  | .awaitingSecond => 1
  | .awaitingFinal _ => 2
  | .closed => 3

/-- **What a session owes when it is over.** -/
def Fate (finalDelay : Duration) (calledOff : List Failure) (h : History) : Result → Prop
  | .reported report => calledOff = [] ∧
    if report.ending = .completed then h.batches.length = 3 else h.batches.length < 2
  | .failed f => h.batches.length ≤ 2 ∧ calledOff = if h.batches.length = 2 then [f] else []
  | .brokenDown => calledOff = [] ∧ h.batches.length ≤ 2 ∧
    (h.batches.length = 2 →
      ∃ first t c, h.reads = [first, (t, c)] ∧ t.after? finalDelay = none)

/-! ## What a step calls off -/

section Steps
variable {s s' t : Session} {now : Instant} {stopping : Bool}

/-- Most events call nothing off. -/
theorem calledOff_quiet {e : Event} (he : e.calledOff? = none) (s : Session) :
    (s.record e).calledOff = s.calledOff := by
  unfold calledOff record
  rw [List.filterMap_append, List.filterMap_cons_none he, List.filterMap_nil, List.append_nil]

theorem calledOff_cancelled (s : Session) (f : Failure) :
    (s.record (.deferredCancelled f)).calledOff = s.calledOff ++ [f] := by
  unfold calledOff record
  rw [List.filterMap_append]
  rfl

/-- A ranking calls nothing off. -/
theorem calledOff_startDelivery (s : Session) (now : Instant) (c : Context) :
    (s.startDelivery now c).calledOff = s.calledOff := by
  have hlisting : ∀ revision items, (listing revision items).filterMap Event.calledOff? = [] := by
    intro revision items
    refine List.filterMap_eq_nil_iff.mpr fun e he => ?_
    obtain ⟨entry, -, rfl⟩ := List.mem_map.mp he
    rfl
  unfold calledOff startDelivery
  rw [List.filterMap_append, List.filterMap_cons_none rfl, hlisting, List.append_nil]

/-- Whoever has called nothing off and does not fail is as the step should be. -/
theorem calls_of_not_failed (hn : ∀ f, s'.activity ≠ .over (.failed f))
    (hc : s'.calledOff = s.calledOff) : s'.calledOff = s.calledOff ++ callsOff s s' := by
  have hnone : callsOff s s' = [] := by
    unfold callsOff
    split
    · rename_i f _ hf
      exact absurd hf (hn f)
    · rfl
  rw [hnone, hc, List.append_nil]

/-- A failure calls off what was scheduled. -/
theorem calls_fail (hp : t.phase = s.phase) (hc : t.calledOff = s.calledOff) (f : Failure) :
    (t.fail f).calledOff = s.calledOff ++ callsOff s (t.fail f) := by
  unfold fail callsOff
  rw [hp]
  cases s.phase with
  | awaitingFinal deadline => exact (t.calledOff_cancelled f).trans (by rw [hc]; rfl)
  | awaitingFirst | awaitingSecond | closed => exact hc.trans (List.append_nil _).symm

theorem calls_onContext {c : Context} (hp : t.phase = s.phase) (hc : t.calledOff = s.calledOff)
    (hs : t.activity = .selecting) :
    (t.onContext now c).calledOff = s.calledOff ++ callsOff s (t.onContext now c) := by
  have hcount : (t.countContext now c).calledOff = s.calledOff :=
    (calledOff_quiet rfl _).trans hc
  cases ha : t.phase.awaitsContext with
  | true =>
    rw [onContext_awaited ha]
    exact calls_of_not_failed nofun ((calledOff_startDelivery ..).trans hcount)
  | false =>
    rw [onContext_unawaited ha]
    cases hstrict : (t.countContext now c).config.strict with
    | true =>
      rw [excess_of_strict hstrict]
      refine calls_fail ?_ ?_ _
      · exact hp
      · exact (calledOff_quiet rfl (t.countContext now c).countExtra).trans hcount
    | false =>
      rw [excess_of_lenient hstrict]
      refine calls_of_not_failed (fun f hf => ?_) ((calledOff_quiet rfl _).trans hcount)
      cases hs.symm.trans hf

theorem calls_react (hs : s.activity = .selecting) (g : Signal) :
    (s.react now g).calledOff = s.calledOff ++ callsOff s (s.react now g) := by
  cases g with
  | stopping => exact calls_fail (s := s) (t := s.sendStatus _) rfl rfl _
  | receiverGone => exact calls_fail (s := s) (t := s.record _) rfl (calledOff_quiet rfl s) _
  | finalDue =>
    unfold react onFinal
    dsimp only
    split
    · exact calls_fail (s := s) rfl rfl _
    · exact calls_of_not_failed nofun (calledOff_startDelivery ..)
  | idleDue =>
    refine calls_of_not_failed nofun ?_
    exact (calledOff_quiet rfl (s.record _)).trans (calledOff_quiet rfl s)
  | halfClosed =>
    have hclosed : ∀ e : Event, e.calledOff? = none →
        ({ s with requestsOpen := false }.record e).calledOff = s.calledOff :=
      fun e he => calledOff_quiet he _
    unfold react onHalfClose
    dsimp only
    split
    · exact calls_of_not_failed nofun ((calledOff_quiet rfl _).trans (hclosed _ rfl))
    · exact calls_of_not_failed (fun f hf => by cases hs.symm.trans hf) (hclosed _ rfl)
  | arrived a =>
    cases a with
    | context c => exact calls_onContext (t := s.takeArrival) rfl rfl hs
    | failed status =>
      exact calls_fail (s := s) (t := (s.takeArrival.record _).sendStatus _) rfl
        (calledOff_quiet rfl s.takeArrival) _

/-- A batch that is queued calls nothing off. -/
theorem calls_delivered {d : Delivery} (hc : t.calledOff = s.calledOff) :
    (t.delivered now d).calledOff = s.calledOff ++ callsOff s (t.delivered now d) := by
  have hquiet : ∀ e : Event, e.calledOff? = none → ∀ tally,
      ({ t with activity := .selecting, tally }.record e).calledOff = s.calledOff :=
    fun e he tally => (calledOff_quiet he _).trans hc
  unfold delivered
  dsimp only
  split
  · split
    · exact calls_of_not_failed nofun hc
    · exact calls_of_not_failed nofun hc
  · split
    · exact calls_of_not_failed nofun hc
    · exact calls_of_not_failed nofun (hquiet _ rfl _)
  · exact calls_of_not_failed nofun (hquiet _ rfl _)
  · exact calls_of_not_failed nofun (hquiet _ rfl _)

/-- **A step calls the deferred revision off if it fails while one is scheduled**,
and never else. -/
theorem calledOff_step (h : s.step now stopping = some s') :
    s'.calledOff = s.calledOff ++ callsOff s s' := by
  unfold step at h
  split at h
  · obtain rfl := Option.some.inj h
    unfold begin
    split
    · exact calls_of_not_failed nofun rfl
    · exact calls_of_not_failed nofun rfl
  · rename_i hs
    obtain ⟨g, -, rfl⟩ := Option.map_eq_some_iff.mp h
    exact calls_react hs g
  · rename_i d hd
    unfold deliver? at h
    split at h
    · obtain rfl := Option.some.inj h
      exact calls_fail (s := s) (t := s.record _) rfl (calledOff_quiet rfl s) _
    · split at h
      · obtain rfl := Option.some.inj h
        exact calls_delivered rfl
      · cases h
  · cases h

end Steps

/-! ## What the phase says of the batches -/

section Batches
variable {s s' : Session} {h : History} {e : Deeds} {now : Instant} {stopping : Bool} {r : Result}

theorem History.batches_of_written {batches : List Batch} (hw : h.written = batches.map .batch) :
    h.batches = batches := by
  have hid : Reply.batch? ∘ Reply.batch = some := rfl
  rw [History.batches, hw, List.filterMap_map, hid, List.filterMap_some]

theorem History.Is.batches {reads : List (Instant × Context)} {asks : List (Context × UInt32)}
    {batches : List Batch} (hi : h.Is reads asks batches) : h.batches = batches :=
  History.batches_of_written hi.written

theorem History.batches_add :
    (h.add now e).batches = h.batches ++ e.puts.filterMap Reply.batch? := by
  rw [History.batches, History.written_add, List.filterMap_append]
  rfl

/-- **The phase of a session counts its batches**, until it is over. -/
theorem length_batches (ht : Told s h) (ho : ∀ r, s.activity ≠ .over r) :
    h.batches.length = s.phase.batches := by
  cases ha : s.activity with
  | entering =>
    obtain ⟨hp, hi⟩ := told_entering ht ha
    rw [hi.batches, hp]
    rfl
  | selecting =>
    cases selects_of_told ht ha with
    | first hp hi | second hp hi | final hp hi =>
      rw [hi.batches, hp]
      rfl
  | delivering d =>
    cases brings_of_told ht ha with
    | first hp hi | second hp hi | final hp hi =>
      rw [hi.batches, hp]
      rfl
  | _ => exact absurd ha (ho _)

/-- Until then it has not queued the last. -/
theorem length_batches_le (ht : Told s h) (ho : ∀ r, s.activity ≠ .over r) :
    h.batches.length ≤ 2 := by
  obtain ⟨batches, hw, -, hlt⟩ := told_written ht ho
  rw [History.batches_of_written hw]
  omega

/-- One more batch on the way out. -/
theorem length_batches_last (ht : Told s h) (ho : ∀ r, s.activity ≠ .over r) (now : Instant)
    (b : Batch) :
    (h.add now ⟨[], [], [.batch b]⟩).batches.length = s.phase.batches + 1 := by
  rw [History.batches_add, List.length_append, length_batches ht ho]
  rfl

/-- A session that awaits a context has not queued the second. -/
theorem length_batches_of_awaits (ht : Told s h) (hs : s.activity = .selecting)
    (hp : s.phase.awaitsContext = true) : h.batches.length < 2 := by
  rw [length_batches ht (by simp [hs])]
  cases hphase : s.phase with
  | awaitingFirst | awaitingSecond => decide
  | awaitingFinal _ | closed => simp [hphase, Phase.awaitsContext] at hp

/-! ## Ends -/

/-- A session that fails queues no batch on its way out. -/
theorem Exit.batches_of_failed {f : Failure} (he : s.Exit now stopping e (.failed f)) :
    e.puts.filterMap Reply.batch? = [] := by
  cases he with
  | stops _ _ | rejects _ _ _ _ | breaks _ _ => exact batches_offered s _
  | deserted _ _ _ | unarmed _ _ _ _ | loses _ _ => rfl

/-- A failure calls off what is owed. -/
theorem fate_failed {f : Failure} {finalDelay : Duration} (ht : Told s h)
    (he : s.Exit now stopping e (.failed f)) (ha : s'.activity = .over (.failed f)) :
    Fate finalDelay (callsOff s s') (h.add now e) (.failed f) := by
  have hbatches : (h.add now e).batches = h.batches := by
    rw [History.batches_add, he.batches_of_failed, List.append_nil]
  have hlength := length_batches ht he.not_over
  have hle := length_batches_le ht he.not_over
  unfold Fate callsOff
  rw [hbatches, ha]
  refine ⟨hle, ?_⟩
  cases hphase : s.phase with
  | awaitingFinal deadline =>
    rw [hphase] at hlength
    simp [hlength, Phase.batches]
  | awaitingFirst | awaitingSecond | closed =>
    rw [hphase] at hlength
    simp [hlength, Phase.batches]

/-- A session that does not fail calls nothing off. -/
theorem callsOff_of_not_failed (ha : s'.activity = .over r) (hn : ∀ f, r ≠ .failed f) :
    callsOff s s' = [] := by
  unfold callsOff
  split
  · rename_i f _ hf
    exact absurd (Activity.over.inj (ha.symm.trans hf)) (hn f)
  · rfl

/-- A session that reports has queued the last batch, or not even the second. -/
theorem fate_reported {report : Report} {finalDelay : Duration} (ht : Told s h)
    (he : s.Exit now stopping e (.reported report)) (ha : s'.activity = .over (.reported report)) :
    Fate finalDelay (callsOff s s') (h.add now e) (.reported report) := by
  rw [callsOff_of_not_failed ha nofun]
  cases he with
  | idles hattends hp _ =>
    rw [History.add_none]
    exact ⟨rfl, length_batches_of_awaits ht hattends.selecting hp⟩
  | closesEarly hl _ _ hp =>
    rw [History.add_none]
    exact ⟨rfl, length_batches_of_awaits ht hl.selecting hp⟩
  | @completes d hd hp =>
    cases brings_of_told ht hd.delivering with
    | first hphase _ | second hphase _ => simp [hphase, Phase.awaitsContext] at hp
    | final hphase _ =>
      have hlength := length_batches_last ht (by simp [hd.delivering]) now d.batch
      rw [hphase] at hlength
      exact ⟨rfl, hlength⟩

/-- A session that breaks down owes nothing, or cannot name the moment at which it
would owe it. -/
theorem fate_brokenDown (ht : Told s h) (he : s.Exit now stopping e .brokenDown)
    (ha : s'.activity = .over .brokenDown) :
    Fate s.config.finalDelay (callsOff s s') (h.add now e) .brokenDown := by
  have hle := length_batches_le ht he.not_over
  rw [callsOff_of_not_failed ha nofun]
  cases he with
  | breaksAtStart he' _ =>
    obtain ⟨-, hi⟩ := told_entering ht he'
    rw [History.add_none]
    exact ⟨rfl, hle, fun htwo => by simp [hi.batches] at htwo⟩
  | @unnameable d hd hcause =>
    have hlength := length_batches_last ht (by simp [hd.delivering]) now d.batch
    rcases hcause with ⟨hp, -⟩ | ⟨hp, hnone⟩
    · rw [hp] at hlength
      exact ⟨rfl, by simp [hlength, Phase.batches], by simp [hlength, Phase.batches]⟩
    · -- the second context is the last that was read, and its final moment has no name
      cases brings_of_told ht hd.delivering with
      | second _ hi =>
        rw [hp] at hlength
        have hreads : (h.add now ⟨[], [], [.batch d.batch]⟩).reads = h.reads := List.append_nil _
        exact ⟨rfl, by simp [hlength, Phase.batches],
          fun _ => ⟨_, _, _, hreads.trans hi.reads, hnone⟩⟩
      | first hp' _ | final hp' _ => cases hp.symm.trans hp'

/-- **However a session ends, it has done what it owes or called it off**, or has
broken down. -/
theorem fate_exit (ht : Told s h) (he : s.Exit now stopping e r)
    (ha : s'.activity = .over r) :
    Fate s.config.finalDelay (callsOff s s') (h.add now e) r := by
  cases r with
  | reported report => exact fate_reported ht he ha
  | failed f => exact fate_failed ht he ha
  | brokenDown => exact fate_brokenDown ht he ha

end Batches

/-! ## Along a run -/

namespace Scene

/-- A scene whose session has called nothing off before its end, and has met its fate
then. -/
structure Settles (x : Scene) : Prop where
  told : Told x.session x.history
  pending : (∀ r, x.session.activity ≠ .over r) → x.session.calledOff = []
  fate : ∀ r, x.session.activity = .over r →
    Fate x.session.config.finalDelay x.session.calledOff x.history r

variable {x : Scene}

theorem settles_after (h : x.Settles) {e : Deeds} {s : Session}
    (hs : x.session.step x.now x.stopping = some s)
    (ht : x.session.Transition x.now x.stopping e s) : (x.after e s).Settles := by
  have hcalled : s.calledOff = callsOff x.session s := by
    rw [calledOff_step hs, h.pending ht.not_over, List.nil_append]
  refine ⟨told_step h.told ht, fun ho => ?_, fun r hr => ?_⟩
  · show s.calledOff = []
    rw [hcalled]
    unfold callsOff
    split
    · rename_i hf
      exact absurd hf (ho _)
    · rfl
  · cases ht with
    | ends he hl =>
      obtain rfl := Activity.over.inj (hl.activity.symm.trans hr)
      have hfate := fate_exit h.told he hl.activity
      show Fate s.config.finalDelay s.calledOff (x.history.add x.now e) _
      rw [hcalled, hl.config]
      exact hfate
    | ignores hl _ _ _ | halfCloses hl _ _ _ => cases hl.selecting.symm.trans hr
    | _ => cases hr

theorem settles_act (h : x.Settles) (m : Move) : (x.act m).Settles := by
  cases m with
  | pass d => exact ⟨h.told, h.pending, h.fate⟩
  | cue c =>
    obtain ⟨_, _, _, he⟩ := x.take_eq c
    refine ⟨told_run h.told [.cue c], ?_, ?_⟩
    · rw [act, he]
      exact h.pending
    · rw [act, he]
      exact h.fate
  | step =>
    cases hs : x.session.step x.now x.stopping with
    | none => simpa only [act, hs] using h
    | some s =>
      obtain ⟨e, ht⟩ := transition_of_step hs
      simp only [act, hs, ht.deeds_eq]
      exact settles_after h hs ht

theorem settles_run (h : x.Settles) (moves : List Move) : (x.run moves).Settles := by
  induction moves generalizing x with
  | nil => exact h
  | cons m moves ih => exact ih (settles_act h m)

theorem settles_ofStart (config : Config) (ranker : Ranker) (id : Nat) (start : Instant)
    (requestCapacity replyCapacity : Nat) :
    (ofStart config ranker id start requestCapacity replyCapacity).Settles :=
  ⟨told_ofStart .., fun _ => rfl, nofun⟩

end Scene

/-- The deferred revision has been delivered, and was never called off. -/
structure Delivered (x : Scene) (r : Result) : Prop where
  queued : x.history.batches.length = 3
  silent : x.session.calledOff = []
  reports : ∃ tally, r = .reported ⟨tally, .completed⟩

/-- The deferred revision has been called off, once, over the failure with which the
session ends. -/
def CalledOff (x : Scene) (r : Result) : Prop :=
  ∃ f, r = .failed f ∧ x.session.calledOff = [f]

/-- The deferred revision has never been scheduled: the session broke down when it had
queued revision 2, the final moment of its second context being beyond the clock. -/
structure Unscheduled (x : Scene) (r : Result) : Prop where
  breaks : r = .brokenDown
  queued : x.history.batches.length = 2
  silent : x.session.calledOff = []
  unnameable : ∃ first t c, x.history.reads = [first, (t, c)] ∧
    t.after? x.session.config.finalDelay = none

/-- **The deferred revision is accounted for exactly once.**  A session that has queued
revision 2 and is over has delivered revision 3, has called it off, or could never
schedule it, and only one of these.  One that has not queued revision 2 never called
anything off. -/
theorem deferred_accounted_for (config : Config) (ranker : Ranker) (id : Nat) (start : Instant)
    (requestCapacity replyCapacity : Nat) (moves : List Move) (r : Result) :
    let x := (Scene.ofStart config ranker id start requestCapacity replyCapacity).run moves
    x.session.activity = .over r →
      (x.history.batches.length < 2 → x.session.calledOff = []) ∧
      (2 ≤ x.history.batches.length →
        (Delivered x r ∨ CalledOff x r ∨ Unscheduled x r) ∧
          ¬ (Delivered x r ∧ CalledOff x r) ∧ ¬ (Delivered x r ∧ Unscheduled x r) ∧
          ¬ (CalledOff x r ∧ Unscheduled x r)) := by
  intro x ho
  have hx : x.Settles := Scene.settles_run (Scene.settles_ofStart ..) moves
  have hfate := hx.fate r ho
  have hexclusive : ¬ (Delivered x r ∧ CalledOff x r) ∧ ¬ (Delivered x r ∧ Unscheduled x r) ∧
      ¬ (CalledOff x r ∧ Unscheduled x r) := by
    refine ⟨?_, ?_, ?_⟩
    · rintro ⟨⟨-, -, tally, rfl⟩, f, hf, -⟩
      cases hf
    · rintro ⟨⟨-, -, tally, rfl⟩, hu⟩
      cases hu.breaks
    · rintro ⟨⟨f, rfl, -⟩, hu⟩
      cases hu.breaks
  cases r with
  | reported report =>
    obtain ⟨hnone, hlength⟩ := hfate
    refine ⟨fun _ => hnone, fun htwo => ⟨.inl ?_, hexclusive⟩⟩
    split at hlength
    · rename_i hc
      exact ⟨hlength, hnone, report.tally, by rw [← hc]⟩
    · omega
  | failed f =>
    obtain ⟨hle, hcalled⟩ := hfate
    refine ⟨fun hlt => ?_, fun htwo => ⟨.inr (.inl ⟨f, rfl, ?_⟩), hexclusive⟩⟩
    · rw [hcalled, if_neg (by omega)]
    · rw [hcalled, if_pos (by omega)]
  | brokenDown =>
    obtain ⟨hnone, hle, hcause⟩ := hfate
    refine ⟨fun _ => hnone, fun htwo => ⟨.inr (.inr ?_), hexclusive⟩⟩
    have hlength : x.history.batches.length = 2 := by omega
    exact ⟨rfl, hlength, hnone, hcause hlength⟩

/-- When the service stops before the final moment, the deferred revision is called
off, and not delivered. -/
theorem deferred_accounted_for_haste :
    let x := (Scene.ofStart .standard .nothing 1 .start 1 3).run
      (haste 2 ++ [Move.cue .stop, Move.step])
    x.session.activity = .over (.failed .shutdown) ∧ 2 ≤ x.history.batches.length ∧
      CalledOff x (.failed .shutdown) ∧ ¬ Delivered x (.failed .shutdown) := by
  intro x
  have ho : x.session.activity = .over (.failed .shutdown) := by decide
  have htwo : 2 ≤ x.history.batches.length := by decide
  have hall := deferred_accounted_for .standard .nothing 1 .start 1 3
    (haste 2 ++ [Move.cue .stop, Move.step]) (.failed .shutdown) ho
  obtain ⟨hone, hn, -⟩ := hall.2 htwo
  rcases hone with hd | hc | hu
  · obtain ⟨tally, hr⟩ := hd.reports
    cases hr
  · exact ⟨ho, htwo, hc, fun hd => hn ⟨hd, hc⟩⟩
  · cases hu.breaks

/-- A session whose final moment is beyond the clock breaks down when it has queued
revision 2: no third batch, no completion, no failure, and nothing is called off. -/
theorem deferred_unaccounted_unending :
    let x := (Scene.ofStart .unending .nothing 1 .start 1 3).run (haste 2)
    x.session.activity = .over .brokenDown ∧ x.history.batches.length = 2 ∧
      ¬ Delivered x .brokenDown ∧ ¬ CalledOff x .brokenDown ∧ x.session.calledOff = [] := by
  refine ⟨by decide, by decide, fun h => ?_, fun h => ?_, by decide⟩
  · obtain ⟨tally, hr⟩ := h.reports
    cases hr
  · obtain ⟨f, hf, -⟩ := h
    cases hf

end ProgressiveSearch.Session
