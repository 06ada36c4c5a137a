import ProgressiveSearch.Proofs.Session.Abort

/-! # What strictness changes

A session asks whether it is strict in one place only: when it has read a context
that it did not await.  Every other step it takes is the step that it would take
if it were lenient (`step_withStrict`).

So a strict and a lenient session that meet with the same do the same until one
of them reads a third context, and then the other one reads it too.  The strict
one ends there, between the second revision and the deferred one
(`strict_until_third`).
-/
namespace ProgressiveSearch.Session

/-- The same configuration, strict or not. -/
def Config.withStrict (config : Config) (strict : Bool) : Config := { config with strict }

/-- The same session, strict or not. -/
def withStrict (strict : Bool) (s : Session) : Session :=
  { s with config := s.config.withStrict strict }

/-- The next step reads a context that the session does not await. -/
structure Exceeds (now : Instant) (stopping : Bool) (s : Session) : Prop
    extends Listens now stopping s where
  unawaited : s.phase.awaitsContext = false
  arrived : ∃ c rest, s.stream.requests.queue = .context c :: rest

section Exceeds
variable {now : Instant} {s : Session}

/-- A session that can read a context which it does not await reads it next. -/
theorem Transition.reads_unawaited {stopping : Bool} {e : Deeds} {s' : Session}
    (ht : s.Transition now stopping e s') (h : s.Exceeds now stopping) : ∃ c, e.reads = [c] := by
  obtain ⟨c, rest, hq⟩ := h.arrived
  cases ht with
  | ignores _ _ _ _ => exact ⟨_, rfl⟩
  | begins he _ => cases h.selecting.symm.trans he
  | answers _ _ hp => cases h.unawaited.symm.trans hp
  | defers _ hp hd _ => exact absurd hd (Nat.not_le.mpr (h.lt_deadline hp))
  | halfCloses _ hq' _ _ => cases hq.symm.trans hq'
  | deliversFirst hd _ _ | deliversSecond hd _ _ => cases h.selecting.symm.trans hd.delivering
  | ends he _ =>
    cases he with
    | rejects _ _ _ _ => exact ⟨_, rfl⟩
    | breaksAtStart he _ => cases h.selecting.symm.trans he
    | stops _ hstop => cases h.serving.symm.trans hstop
    | deserted _ _ hr => cases h.read.symm.trans hr
    | unarmed _ hp hd _ => exact absurd hd (Nat.not_le.mpr (h.lt_deadline hp))
    | idles _ hp _ | closesEarly _ _ _ hp => cases h.unawaited.symm.trans hp
    | breaks _ hq' => cases hq.symm.trans hq'
    | loses hd _ => cases h.selecting.symm.trans hd
    | unnameable hd _ | completes hd _ => cases h.selecting.symm.trans hd.delivering

/-- It does not wait. -/
theorem Exceeds.steps {stopping : Bool} (h : s.Exceeds now stopping) :
    ∃ s', s.step now stopping = some s' := by
  obtain ⟨c, rest, hq⟩ := h.arrived
  cases hs : s.step now stopping with
  | some s' => exact ⟨s', rfl⟩
  | none =>
    rcases waits_of_step_none hs (by simp [h.selecting]) with hi | ⟨d, hd, -⟩
    · have hnone := hi.unanswered
      simp [arrival?, h.isOpen, hq] at hnone
    · cases h.selecting.symm.trans hd

end Exceeds

/-! ## The one place -/

section Steps
variable {now : Instant} {stopping : Bool} {s : Session} {strict : Bool}

@[simp] theorem stream_withStrict : (s.withStrict strict).stream = s.stream := rfl

@[simp] theorem phase_withStrict : (s.withStrict strict).phase = s.phase := rfl

@[simp] theorem config_withStrict :
    (s.withStrict strict).config = s.config.withStrict strict := rfl

theorem fail_withStrict (f : Failure) :
    (s.withStrict strict).fail f = (s.fail f).withStrict strict := by
  unfold fail
  rw [phase_withStrict]
  split
  · rfl
  · rfl

theorem begin_withStrict : (s.withStrict strict).begin now = (s.begin now).withStrict strict := by
  unfold begin
  dsimp only [config_withStrict, Config.withStrict]
  split
  · rfl
  · rfl

theorem delivered_withStrict (d : Delivery) :
    (s.withStrict strict).delivered now d = (s.delivered now d).withStrict strict := by
  unfold delivered
  dsimp only [withStrict, Config.withStrict]
  split
  · split
    · rfl
    · rfl
  · split
    · rfl
    · rfl
  · rfl
  · rfl

theorem deliver?_withStrict (d : Delivery) :
    (s.withStrict strict).deliver? now d = (s.deliver? now d).map (withStrict strict) := by
  unfold deliver?
  rw [stream_withStrict]
  split
  · exact congrArg some (fail_withStrict (s := s.record (.sendFailed s.dueRevision)) _)
  · split
    · let queued := { s.stream with replies := s.stream.replies.put (.batch d.batch) }
      exact congrArg some (delivered_withStrict (s := { s with stream := queued }) d)
    · rfl

theorem onHalfClose_withStrict :
    (s.withStrict strict).onHalfClose now = (s.onHalfClose now).withStrict strict := by
  unfold onHalfClose
  dsimp only [withStrict, record]
  split
  · rfl
  · rfl

theorem onFinal_withStrict :
    (s.withStrict strict).onFinal now = (s.onFinal now).withStrict strict := by
  unfold onFinal
  dsimp only [withStrict]
  split
  · exact fail_withStrict ..
  · rfl

/-- An awaited context is answered by either session. -/
theorem onContext_withStrict (hp : s.phase.awaitsContext = true) (c : Context) :
    (s.withStrict strict).onContext now c = (s.onContext now c).withStrict strict := by
  rw [onContext_awaited hp, onContext_awaited (s := s.withStrict strict) hp]
  rfl

/-- Both sessions react to the same in the same way, but for a context that is
not awaited. -/
theorem react_withStrict {g : Signal}
    (hg : ∀ c, g = .arrived (.context c) → s.phase.awaitsContext = true) :
    (s.withStrict strict).react now g = (s.react now g).withStrict strict := by
  cases g with
  | stopping => exact fail_withStrict (s := s.sendStatus Failure.shutdown.status) _
  | receiverGone => exact fail_withStrict (s := s.record (.receiverGone s.tally.requestsSeen)) _
  | finalDue => exact onFinal_withStrict
  | idleDue => rfl
  | halfClosed => exact onHalfClose_withStrict
  | arrived a =>
    cases a with
    | context c => exact onContext_withStrict (s := s.takeArrival) (hg c rfl) c
    | failed status =>
      exact fail_withStrict (s := (s.takeArrival.record (.streamFailed ..)).sendStatus status) _

/-- **Every step but one is that of the other session.** -/
theorem step_withStrict (h : ¬ s.Exceeds now stopping) :
    (s.withStrict strict).step now stopping = (s.step now stopping).map (withStrict strict) := by
  unfold step
  dsimp only [withStrict]
  split
  · exact congrArg some begin_withStrict
  · rename_i hs
    show (s.signal? now stopping).map _ = _
    cases hg : s.signal? now stopping with
    | none => rfl
    | some g =>
      refine congrArg some (react_withStrict fun c hc => ?_)
      cases hp : s.phase.awaitsContext with
      | true => rfl
      | false =>
        cases notices_of_signal hs (hc ▸ hg) with
        | arrived hl hq => exact absurd { hl with unawaited := hp, arrived := ⟨c, _, hq⟩ } h
  · exact deliver?_withStrict _
  · rfl

/-- Both sessions have too much to read at the same time. -/
theorem Exceeds.withStrict (h : s.Exceeds now stopping) :
    (s.withStrict strict).Exceeds now stopping :=
  { selecting := h.selecting, serving := h.serving, read := h.read, untimed := h.untimed,
    isOpen := h.isOpen, unawaited := h.unawaited, arrived := h.arrived }

end Steps

/-! ## Two runs -/

namespace Scene

/-- The same scene, with a session that is strict or not. -/
def withStrict (strict : Bool) (x : Scene) : Scene :=
  { x with session := x.session.withStrict strict }

section Runs
variable {x y : Scene} {strict : Bool}

theorem take_withStrict (c : Cue) : (x.withStrict strict).take c = (x.take c).withStrict strict := by
  cases c with
  | stop | halfClose | leave => rfl
  | send a | read =>
    unfold take
    dsimp only [withStrict, stream_withStrict]
    split
    · rfl
    · rfl

/-- A move that is not about to read too much is the same for both. -/
theorem act_withStrict (m : Move) (h : m = .step → ¬ x.session.Exceeds x.now x.stopping) :
    (x.withStrict strict).act m = (x.act m).withStrict strict := by
  cases m with
  | cue c => exact take_withStrict c
  | pass d => rfl
  | step =>
    unfold act
    dsimp only [withStrict]
    rw [step_withStrict (h rfl)]
    cases x.session.step x.now x.stopping with
    | none => rfl
    | some s => rfl

/-- Contexts once read are not forgotten. -/
theorem contexts_act (m : Move) : ∃ more, (x.act m).history.contexts = x.history.contexts ++ more := by
  cases m with
  | cue c =>
    obtain ⟨_, _, _, he⟩ := x.take_eq c
    exact ⟨[], by rw [act, he, List.append_nil]⟩
  | pass d => exact ⟨[], (List.append_nil _).symm⟩
  | step =>
    rcases x.act_step with he | ⟨e, s, -, he⟩
    · exact ⟨[], by rw [he, List.append_nil]⟩
    · exact ⟨e.reads, by rw [he]; exact History.contexts_add⟩

/-- What is not awaited is the third context, or a later one. -/
theorem two_lt_of_exceeds (htold : Told x.session x.history)
    (h : x.session.Exceeds x.now x.stopping) : 2 < (x.act .step).history.contexts.length := by
  obtain ⟨t, c, t', c', rest, hi, -⟩ := told_final htold h.selecting h.unawaited
  have htwo : 2 ≤ x.history.contexts.length := by simp [hi.contexts]
  obtain ⟨s, hs⟩ := h.steps
  obtain ⟨e, ht⟩ := transition_of_step hs
  obtain ⟨c, hreads⟩ := ht.reads_unawaited h
  have hcontexts : (x.act .step).history.contexts = x.history.contexts ++ [c] := by
    simp only [act, hs, after, History.contexts_add, ht.deeds_eq, hreads]
  rw [hcontexts, List.length_append, List.length_singleton]
  omega

/-! ## The third context -/

/-- A session that awaits a context has read less than two. -/
theorem lt_two_of_awaits (htold : Told x.session x.history) (hs : x.session.activity = .selecting)
    (hp : x.session.phase.awaitsContext = true) : x.history.contexts.length < 2 := by
  unfold Told at htold
  rw [hs] at htold
  cases hphase : x.session.phase with
  | awaitingFirst =>
    simp only [hphase] at htold
    simp [htold.contexts]
  | awaitingSecond =>
    simp only [hphase] at htold
    obtain ⟨t, c, hi⟩ := htold
    simp [hi.contexts]
  | awaitingFinal _ | closed => simp [hphase, Phase.awaitsContext] at hp

/-- The strict session of `x` is turned away over the third context, and this is
what is left of it in `z`: it has read three contexts, the last one now, before
the final moment that it waited for; it has asked for two revisions and queued
the answers, and after them, if there was room, the status. -/
structure TurnedAway (x z : Scene) : Prop where
  failed : z.session.activity =
    .over (.failed (.protocolViolation "unexpected context #3 (at most 2 per call)"))
  history : ∃ t c t' c' c'' deadline,
    z.history.reads = [(t, c), (t', c'), (x.now, c'')] ∧
      z.history.queries = [(c, 1), (c', 2)] ∧
      z.history.written =
        [.batch (x.session.ranker c 1), .batch (x.session.ranker c' 2)] ++
          (if x.session.stream.replies.hasRoom then
            [.failed (Failure.protocolViolation
              "unexpected context #3 (at most 2 per call)").status]
          else []) ∧
      x.session.phase = .awaitingFinal deadline ∧ x.now < deadline

/-- The step that rejects a context rejects the third one. -/
theorem turnedAway_rejects {c'' : Context} {f : Failure} {s : Session}
    (htold : Told x.session x.history) (hc : x.Counted) (hlen : x.history.contexts.length ≤ 2)
    (hl : x.session.Listens x.now x.stopping) (hp : x.session.phase.awaitsContext = false)
    (hf : f = .protocolViolation (excessReason (Word.next32 x.session.tally.requestsSeen)))
    (hleft : x.session.Left ⟨[c''], [], x.session.offered f.status⟩ (.failed f) s) :
    x.TurnedAway (x.after ⟨[c''], [], x.session.offered f.status⟩ s) := by
  obtain ⟨t, c, t', c', rest', hi, -, hphase⟩ := told_final htold hl.selecting hp
  have hrest : rest' = [] := by
    rw [hi.contexts] at hlen
    exact List.length_eq_zero_iff.mp (by simpa using hlen)
  subst hrest
  have hseen : x.session.tally.requestsSeen = 2 := by
    rw [hc (by simp [hl.selecting]), hi.contexts]
    rfl
  obtain rfl : f = .protocolViolation "unexpected context #3 (at most 2 per call)" := by
    rw [hf, hseen]
    rfl
  refine ⟨hleft.activity, t, c, t', c', c'', t'.plus x.session.config.finalDelay, ?_, ?_, ?_,
    hphase, hl.lt_deadline hphase⟩
  · show x.history.reads ++ _ = _
    rw [hi.reads]
    rfl
  · show (x.history.add x.now _).queries = _
    rw [History.queries_add, hi.asks]
    rfl
  · show (x.history.add x.now _).written = _
    rw [History.written_add, hi.written, offered, if_neg (by simp [hl.read])]
    rfl

/-- **A strict session ends at the very step that reads the third context.** -/
theorem turnedAway_act (htold : Told x.session x.history) (hc : x.Counted)
    (hs : x.session.config.strict = true) (hlen : x.history.contexts.length ≤ 2) {m : Move}
    (h : 2 < (x.act m).history.contexts.length) : x.TurnedAway (x.act m) := by
  have hmore : (x.act m).history.contexts ≠ x.history.contexts := by
    intro heq
    rw [heq] at h
    omega
  cases m with
  | cue c =>
    obtain ⟨_, _, _, he⟩ := x.take_eq c
    exact absurd (by rw [act, he]) hmore
  | pass d => exact absurd rfl hmore
  | step =>
    rcases x.act_step with he | ⟨e, s, ht, he⟩
    · exact absurd (by rw [he]) hmore
    · rw [he] at h hmore ⊢
      have hcontexts : (x.after e s).history.contexts = x.history.contexts ++ e.reads :=
        History.contexts_add
      have hreads : e.reads ≠ [] := fun hnone => hmore (by rw [hcontexts, hnone, List.append_nil])
      cases ht with
      | answers hl _ hp =>
        have hlt := lt_two_of_awaits htold hl.selecting hp
        rw [hcontexts, List.length_append, List.length_singleton] at h
        omega
      | ignores _ _ _ hlenient => cases hs.symm.trans hlenient
      | ends hexit hleft =>
        cases hexit with
        | rejects hl _ hp _ => exact turnedAway_rejects htold hc hlen hl hp rfl hleft
        | _ => exact absurd rfl hreads
      | _ => exact absurd rfl hreads

/-! ## The same until the third context -/

/-- A strict session and a lenient one that have met with the same: they are in the
same state, or both have read a third context. -/
def Paired (x y : Scene) : Prop :=
  x = y.withStrict true ∨ 2 < x.history.contexts.length ∧ 2 < y.history.contexts.length

theorem lt_contexts_act {n : Nat} (h : n < x.history.contexts.length) (m : Move) :
    n < (x.act m).history.contexts.length := by
  obtain ⟨more, he⟩ := x.contexts_act m
  rw [he, List.length_append]
  omega

theorem paired_act (htold : Told y.session y.history) (h : Paired x y) (m : Move) :
    Paired (x.act m) (y.act m) := by
  rcases h with rfl | ⟨hx, hy⟩
  · by_cases hlen : y.history.contexts.length ≤ 2
    · by_cases hex : m = .step ∧ y.session.Exceeds y.now y.stopping
      · obtain ⟨rfl, hex⟩ := hex
        exact .inr ⟨two_lt_of_exceeds (x := y.withStrict true) htold hex.withStrict,
          two_lt_of_exceeds htold hex⟩
      · exact .inl (act_withStrict m fun hm he => hex ⟨hm, he⟩)
    · have hlt := Nat.lt_of_not_le hlen
      exact .inr ⟨lt_contexts_act (x := y.withStrict true) hlt m, lt_contexts_act hlt m⟩
  · exact .inr ⟨lt_contexts_act hx m, lt_contexts_act hy m⟩

theorem paired_run (htold : Told y.session y.history) (h : Paired x y) (moves : List Move) :
    Paired (x.run moves) (y.run moves) := by
  induction moves generalizing x y with
  | nil => exact h
  | cons m moves ih =>
    exact ih (told_run htold [m]) (paired_act htold h m)

/-- Whoever is turned away stays so. -/
theorem TurnedAway.run {z : Scene} (h : x.TurnedAway z) (later : List Move) :
    x.TurnedAway (z.run later) := by
  obtain ⟨hover, hhistory⟩ := run_over h.failed later
  exact ⟨hover, hhistory ▸ h.history⟩

end Runs
end Scene

section Run
variable (config : Config) (ranker : Ranker) (id : Nat) (start : Instant)
  (requestCapacity replyCapacity : Nat)

/-- **Strictness changes nothing before the third context.**  Whatever happens around
a strict session and a lenient one, as long as one of them has not read more than two
contexts neither has the other, and they are in the same state after the same past.
The move at which the strict session reads a third context turns it away, and
whatever comes later it stays so, with revisions 1 and 2 all that it ever asked for. -/
theorem strict_until_third (moves later : List Move) (m : Move) :
    let strict := (Scene.ofStart (config.withStrict true) ranker id start requestCapacity
      replyCapacity).run moves
    let lenient := (Scene.ofStart (config.withStrict false) ranker id start requestCapacity
      replyCapacity).run moves
    (strict.history.contexts.length ≤ 2 ↔ lenient.history.contexts.length ≤ 2) ∧
      (strict.history.contexts.length ≤ 2 → strict = lenient.withStrict true) ∧
      (strict.history.contexts.length ≤ 2 → 2 < (strict.act m).history.contexts.length →
        strict.TurnedAway ((strict.act m).run later) ∧
          ((strict.act m).run later).session.ranked = [1, 2]) := by
  intro strict lenient
  have hstart : (Scene.ofStart (config.withStrict true) ranker id start requestCapacity
      replyCapacity).Paired (Scene.ofStart (config.withStrict false) ranker id start
        requestCapacity replyCapacity) := .inl rfl
  have hpaired : strict.Paired lenient :=
    Scene.paired_run (told_ofStart ..) hstart moves
  refine ⟨?_, fun hlen => ?_, fun hlen hm => ?_⟩
  · rcases hpaired with he | ⟨hs, hl⟩
    · rw [he]
      exact Iff.rfl
    · exact iff_of_false (Nat.not_le.mpr hs) (Nat.not_le.mpr hl)
  · rcases hpaired with he | ⟨hs, -⟩
    · exact he
    · exact absurd hlen (Nat.not_le.mpr hs)
  · have htold := told (config.withStrict true) ranker id start requestCapacity replyCapacity moves
    have hcounted : strict.Counted := Scene.counted_run (fun _ => rfl) moves
    have hstrict : strict.session.config.strict = true := by
      rw [(Scene.run_config_ranker moves).1]
      rfl
    have haway := (Scene.turnedAway_act htold hcounted hstrict hlen hm).run later
    refine ⟨haway, ?_⟩
    obtain ⟨t, c, t', c', c'', deadline, -, hqueries, -⟩ := haway.history
    have hranked : ((strict.act m).run later).session.ranked =
        ((strict.act m).run later).history.queries.map Prod.snd :=
      Scene.ranked_run (Scene.ranked_run (Scene.ranked_run rfl moves) [m]) later
    rw [hranked, hqueries]
    rfl

/-- Three contexts at once, and then all the time in the world. -/
theorem turnedAway_hurry :
    ((strictScene 3).run hurry).history.contexts.length ≤ 2 ∧
      2 < (((strictScene 3).run hurry).act .step).history.contexts.length ∧
      ((strictScene 3).run hurry).TurnedAway
        ((((strictScene 3).run hurry).act .step).run [.pass (.ofSeconds 60), .step, .step]) :=
  ⟨by decide, by decide, ((strict_until_third .standard .nothing 1 .start 1 3 hurry
    [.pass (.ofSeconds 60), .step, .step] .step).2.2 (by decide) (by decide)).1⟩

end Run
end ProgressiveSearch.Session
