import ProgressiveSearch.Proofs.Session.Outlook

/-! # When and how a session ends

A session that meets a script ends at the first of the earliest `occasions`
(`ends_at_earliest`).  That what is earliest in its outlook stays so was shown
before; what is left is that the session does end, which is shown by counting what
can still happen (`workload`), and that at the start the outlook is that of the
script.
-/
namespace ProgressiveSearch.Session
namespace Play

/-! ## The session ends -/

section Termination
variable {p : Play}

/-- How far a session is from its select, and the select from its end. -/
def rank (s : Session) : Nat :=
  match s.phase, s.activity with
  | _, .entering => 2
  | _, .selecting => 1
  | .awaitingFirst, .delivering _ | .awaitingSecond, .delivering _ => 2
  | _, _ => 0

/-- What can still happen before the clock has to go on for the last time: every
entry of the script, and what the session makes of what it brings.  An entry weighs
more than the arrival that it may bring, and that more than the delivery that it may
call for. -/
def workload (p : Play) : Nat :=
  3 * p.script.length + 2 * p.scene.session.stream.requests.queue.length +
    rank p.scene.session + p.scene.session.requestsOpen.toNat

/-- Only the clock can go on. -/
def stalls (p : Play) : Bool :=
  p.due?.isNone && (p.scene.session.step p.scene.now p.scene.stopping).isNone

theorem workload_takes {t : Instant} {c : Cue} {rest : Script} (hs : p.script = (t, c) :: rest) :
    workload ⟨p.scene.take c, rest⟩ < p.workload := by
  obtain ⟨_, _, _, he⟩ := p.scene.take_eq c
  have hrank : rank (p.scene.take c).session = rank p.scene.session := by
    rw [he]
    rfl
  have hopen : (p.scene.take c).session.requestsOpen = p.scene.session.requestsOpen := by rw [he]
  have hqueue : (p.scene.take c).session.stream.requests.queue.length ≤
      p.scene.session.stream.requests.queue.length + 1 := by
    cases c with
    | stop | halfClose | leave => exact Nat.le_succ _
    | send a | read =>
      unfold Scene.take
      dsimp only
      split
      · exact Nat.le_succ _
      · simp [Scene.withStream, Channel.put]
  unfold workload
  rw [hs, hrank, hopen, List.length_cons]
  dsimp only
  omega

theorem workload_steps {e : Deeds} {s : Session}
    (ht : p.scene.session.Transition p.scene.now p.scene.stopping e s)
    (ho : ∀ r, s.activity ≠ .over r) :
    workload { p with scene := p.scene.after e s } < p.workload := by
  unfold workload rank
  cases ht with
  | begins he _ => simp [Scene.after, he]
  | answers hl hq hp =>
    -- the arrival is gone, which outweighs the delivery that it calls for
    cases hphase : p.scene.session.phase with
    | awaitingFirst | awaitingSecond =>
      simp only [Scene.after, hl.selecting, hq, List.length_cons]
      omega
    | awaitingFinal _ | closed => simp [hphase, Phase.awaitsContext] at hp
  | defers ha hp _ _ => simp [Scene.after, hp, ha.selecting]
  | ignores hl hq _ _ =>
    simp only [Scene.after, hl.selecting, hq, List.length_cons]
    omega
  | halfCloses hl _ _ _ => simp [Scene.after, hl.selecting, hl.isOpen]
  | deliversFirst hdel hp _ | deliversSecond hdel hp _ =>
    simp [Scene.after, hp, hdel.delivering]
  | ends _ hl => exact absurd hl.activity (ho _)

/-- A session takes a step from the moment on at which it wakes. -/
theorem step_of_wakesAt {s : Session} {now t : Instant} {stopping : Bool}
    (h : s.wakesAt = some t) (ht : t ≤ now) : s.step now stopping ≠ none := by
  unfold wakesAt at h
  have hsignal : s.activity = .selecting ∧ s.timer? now ≠ none := by
    unfold timer?
    split at h
    · rename_i hs hp
      obtain rfl := Option.some.inj h
      simp [hs, hp, ht]
    · rename_i hs hp
      obtain rfl := Option.some.inj h
      simp [hs, hp, ht]
    · rename_i hs hp
      obtain rfl := Option.some.inj h
      simp [hs, hp, ht]
    · cases h
  obtain ⟨hs, htimer⟩ := hsignal
  unfold step signal?
  rw [hs]
  cases stopping with
  | true => simp
  | false =>
    cases s.stream.replies.receiverGone with
    | true => simp
    | false => simp [Option.or_eq_none_iff, htimer]

/-- When the clock has gone on something can happen. -/
theorem stalls_waits {t : Instant} (hle : p.scene.now ≤ t) (hn : p.nextMoment? = some t) :
    stalls { p with scene := p.scene.act (.pass (p.scene.now.elapsed t)) } = false := by
  have hnow : (p.scene.act (.pass (p.scene.now.elapsed t))).now = t := Instant.plus_elapsed hle
  unfold stalls
  rw [Bool.and_eq_false_iff]
  rcases nextMoment_mem hn with ⟨entry, hm, rfl⟩ | hw
  -- either the script goes on, or the session wakes
  · left
    unfold due?
    cases hs : p.script with
    | nil => simp [hs] at hm
    | cons first rest =>
      obtain rfl : first = entry := by simpa [hs] using hm
      dsimp only
      rw [hnow]
      exact congrArg Option.isNone (if_pos (Nat.le_refl _))
  · right
    rw [hnow]
    exact Option.isNone_eq_false_iff.mpr (Option.isSome_iff_ne_none.mpr
      (step_of_wakesAt hw (Nat.le_refl _)))

/-- What can still happen, with the clock counted. -/
def distance (p : Play) : Nat := 2 * p.workload + p.stalls.toNat

/-- **Everything that happens brings the end nearer.** -/
theorem distance_advance {q : Play} (h : p.Prompt) (ha : p.Advance q)
    (ho : ∀ r, q.scene.session.activity ≠ .over r) : q.distance < p.distance := by
  have hq := Bool.toNat_le q.stalls
  unfold distance
  cases ha with
  | takes _ hs _ =>
    have hlt := workload_takes hs
    omega
  | steps _ ht _ =>
    have hlt := workload_steps ht ho
    omega
  | @waits t _ hd hs hn =>
    -- time alone changes nothing, but it brings something to do
    have hsame : workload { p with scene := p.scene.act (.pass (p.scene.now.elapsed t)) } =
        p.workload := rfl
    have hbusy := stalls_waits (h.le_nextMoment hn) hn
    have hstalls : p.stalls = true := by simp [stalls, hd, hs]
    rw [hbusy, hstalls, hsame]
    exact Nat.lt_succ_self _

theorem after_succ (p : Play) (n : Nat) : p.after (n + 1) = p.next.after n := by
  induction n with
  | zero => rfl
  | succ n ih => exact congrArg next ih

/-- **A play ends at what is earliest in its outlook.** -/
theorem ends_at_outlook (h : p.Prompt) (ho : ∀ r, p.scene.session.activity ≠ .over r) :
    ∃ t v, earliest p.outlook = some (t, v) ∧ p.EndsAt t v := by
  induction hdist : p.distance using Nat.strongRecOn generalizing p with
  | ind n ih =>
    have ha := h.advances ho
    obtain ⟨hends, hgoes⟩ := earliest_outlook h ha
    by_cases hover : ∃ r, p.next.scene.session.activity = .over r
    · obtain ⟨r, hr⟩ := hover
      exact ⟨_, _, hends r hr, 1, r, hr, rfl, rfl⟩
    · have ho' : ∀ r, p.next.scene.session.activity ≠ .over r := fun r hr => hover ⟨r, hr⟩
      have hlt := distance_advance h ha ho'
      obtain ⟨t, v, hv, m, r, hr, hrv, ht⟩ := ih _ (hdist ▸ hlt) (prompt_advance h ha) ho' rfl
      refine ⟨t, v, (hgoes ho').symm.trans hv, m + 1, r, ?_, hrv, ?_⟩
      · rw [after_succ]
        exact hr
      · rw [after_succ]
        exact ht

end Termination

/-! ## At the start -/

section Start
variable {config : Config} {x : Prospect} {deadline : Instant}

/-- A session that awaits its second context does not outlast its deadline by more
than the final delay. -/
theorem soon_second (hseen : x.seen = 1) :
    ∃ y ∈ x.occasions config (.second deadline), y.1 ≤ deadline.plus config.finalDelay := by
  cases hr : readBy (some deadline) x.inbound with
  | none =>
    have htimer : (Awaiting.second deadline).timer config x.inbound = _ := timer_unread hr
    refine ⟨(deadline, .reported .idleTimeout), ?_, Nat.le_add_right _ _⟩
    simp [Prospect.occasions, htimer, Awaiting.deadline, Awaiting.verdict]
  | some t =>
    obtain ⟨hlt, c, more, hin⟩ := readBy_eq_some hr
    have htimer : (Awaiting.second deadline).timer config x.inbound = _ := secondTimer_read hr
    cases hd : t.after? config.finalDelay with
    | none =>
      have hdecisive : decisive config x.seen x.inbound = some (t, .brokenDown) := by
        rw [hin, hseen]
        exact decisive_cons_some (judge_second.trans (if_pos hd))
      refine ⟨(t, .brokenDown), ?_, Nat.le_trans (Nat.le_of_lt hlt) (Nat.le_add_right _ _)⟩
      simp [Prospect.occasions, hdecisive]
    | some u =>
      refine ⟨(u, .reported .completed), ?_, ?_⟩
      · simp [Prospect.occasions, htimer, hd]
      · rw [Instant.after?_eq_some hd]
        exact Nat.add_le_add_right (Nat.le_of_lt hlt) _

/-- One that awaits its first context may start one more wait. -/
theorem soon_first (hseen : x.seen = 0) : ∃ y ∈ x.occasions config (.first deadline),
    y.1 ≤ (deadline.plus config.idleTimeout).plus config.finalDelay := by
  cases hr : readBy (some deadline) x.inbound with
  | none =>
    have htimer : (Awaiting.first deadline).timer config x.inbound = _ := timer_unread hr
    refine ⟨(deadline, .reported .idleTimeout), ?_, ?_⟩
    · simp [Prospect.occasions, htimer, Awaiting.deadline, Awaiting.verdict]
    · exact Nat.le_trans (Nat.le_add_right _ _) (Nat.le_add_right _ _)
  | some t =>
    obtain ⟨hlt, c, more, hin⟩ := readBy_eq_some hr
    cases hd : t.after? config.idleTimeout with
    | none =>
      have hdecisive : decisive config x.seen x.inbound = some (t, .brokenDown) := by
        rw [hin, hseen]
        exact decisive_cons_some (judge_first.trans (if_pos hd))
      refine ⟨(t, .brokenDown), ?_, Nat.le_trans (Nat.le_of_lt hlt)
        (Nat.le_trans (Nat.le_add_right _ _) (Nat.le_add_right _ _))⟩
      simp [Prospect.occasions, hdecisive]
    | some deadline' =>
      -- the second wait starts no later than the first was to end
      rw [occasions_first hin hseen hlt hd]
      obtain ⟨y, hy, hle⟩ := soon_second (x := { x with inbound := more, seen := x.seen + 1 })
        (congrArg (· + 1) hseen)
      refine ⟨y, hy, Nat.le_trans hle ?_⟩
      rw [Instant.after?_eq_some hd]
      exact Nat.add_le_add_right (Nat.add_le_add_right (Nat.le_of_lt hlt) _) _

/-- The timer of a session that is about to begin is the final moment or the idle
deadline. -/
theorem timer_eq {start : Instant} {script : Script}
    (hd : start.after? config.idleTimeout = some deadline) :
    ((Awaiting.first deadline).timer config (inbound script)).toList =
      ((finalMoment config start script).map (·, Verdict.reported .completed)).toList ++
        ((idleMoment config start script).map (·, Verdict.reported .idleTimeout)).toList := by
  unfold finalMoment idleMoment secondRead firstRead
  rw [hd]
  cases hr : readBy (some deadline) (inbound script) with
  | none =>
    have htimer : (Awaiting.first deadline).timer config (inbound script) = _ := timer_unread hr
    rw [htimer]
    rfl
  | some t =>
    rw [timer_first_read hr]
    cases hd' : t.after? config.idleTimeout with
    | none =>
      -- a wait whose deadline cannot be named reads nothing
      have hunread : readBy none (inbound script).tail = none := by
        unfold readBy
        split <;> rfl
      simp [hd', hunread]
    | some deadline' =>
      cases hr' : readBy (some deadline') (inbound script).tail with
      | none => simp [secondTimer, hd', hr']
      | some t' => simp [secondTimer_read hr', hd', hr']

/-- A session that is about to begin has its idle deadline and the script ahead. -/
theorem outlook_begins (config : Config) (ranker : Ranker) (id : Nat) (start : Instant)
    (requestCapacity replyCapacity : Nat) (script : Script) :
    (ofStart config ranker id start requestCapacity replyCapacity script).outlook =
      match (start.after? config.idleTimeout).map Awaiting.first with
      | none => [(start, .brokenDown)]
      | some w => Prospect.occasions config
          ⟨momentOf .stop script, momentOf .leave script, inbound script, 0⟩ w := rfl

/-- **At the start the occasions ahead are those of the script.** -/
theorem outlook_ofStart (ranker : Ranker) (id : Nat) {start : Instant}
    (requestCapacity replyCapacity : Nat) {script : Script} (hc : Chronological start script) :
    earliest (ofStart config ranker id start requestCapacity replyCapacity script).outlook =
      earliest (occasions config start script) := by
  rw [outlook_begins]
  cases hd : start.after? config.idleTimeout with
  | none =>
    -- nothing is read, so no timer runs; whatever else there is comes from the script
    have hread : firstRead config start script = none := by
      unfold firstRead readBy
      rw [hd]
      split <;> rfl
    have hoccasions : occasions config start script = (start, .brokenDown) ::
        (((momentOf .stop script).map (·, Verdict.failed .shutdown)).toList ++
          (((momentOf .leave script).map (·, Verdict.failed .peerGone)).toList ++
            (decisive config 0 (inbound script)).toList)) := by
      simp [occasions, finalMoment, idleMoment, secondRead, hread, hd]
    rw [hoccasions]
    refine (@earliest_of _ [] _ _ nofun fun y hy => ?_).symm
    obtain ⟨c, hm⟩ : ∃ c, (y.1, c) ∈ script := by
      rcases List.mem_append.mp hy with hy | hy
      · obtain ⟨t, ht, rfl⟩ := by simpa using hy
        exact ⟨_, momentOf_mem ht⟩
      · rcases List.mem_append.mp hy with hy | hy
        · obtain ⟨t, ht, rfl⟩ := by simpa using hy
          exact ⟨_, momentOf_mem ht⟩
        · obtain ⟨g, hg⟩ := decisive_mem (Option.mem_toList.mp hy)
          exact mem_of_mem_inbound hg
    exact hc.all _ hm
  | some deadline =>
    simp only [Prospect.occasions, occasions, Option.map_some, timer_eq hd]
    simp [hd]

/-- At the start there are occasions that do not let the session last. -/
theorem soon_ofStart (ranker : Ranker) (id : Nat) (start : Instant)
    (requestCapacity replyCapacity : Nat) (script : Script) :
    ∃ y ∈ (ofStart config ranker id start requestCapacity replyCapacity script).outlook,
      y.1 ≤ ((start.plus config.idleTimeout).plus config.idleTimeout).plus config.finalDelay := by
  rw [outlook_begins]
  cases hd : start.after? config.idleTimeout with
  | none =>
    refine ⟨_, List.mem_singleton_self _, ?_⟩
    exact Nat.le_trans (Nat.le_add_right _ _)
      (Nat.le_trans (Nat.le_add_right _ _) (Nat.le_add_right _ _))
  | some deadline =>
    obtain rfl := Instant.after?_eq_some hd
    exact soon_first rfl

end Start

end Play

/-- **A session ends at the first of the earliest occasions**, as that says, and
only then.  So it never lasts longer than two idle timeouts and the final delay. -/
theorem ends_at_earliest (config : Config) (ranker : Ranker) (id : Nat) (start : Instant)
    (requestCapacity : Nat) {replyCapacity : Nat} {script : Script}
    (hc : Chronological start script) (hcap : 3 ≤ replyCapacity) :
    ∃ t v, earliest (occasions config start script) = some (t, v) ∧
      (∀ t' v', (Play.ofStart config ranker id start requestCapacity replyCapacity script).EndsAt
        t' v' ↔ t' = t ∧ v' = v) ∧
      t ≤ ((start.plus config.idleTimeout).plus config.idleTimeout).plus config.finalDelay := by
  have hprompt := Play.prompt_ofStart config ranker id start requestCapacity replyCapacity hc hcap
  obtain ⟨t, v, hv, hends⟩ := Play.ends_at_outlook hprompt nofun
  obtain ⟨y, hy, hle⟩ :=
    Play.soon_ofStart ranker id start requestCapacity replyCapacity script
  refine ⟨t, v, ?_, fun t' v' => ⟨fun h' => hends.unique h', ?_⟩, ?_⟩
  · rw [← Play.outlook_ofStart ranker id requestCapacity replyCapacity hc]
    exact hv
  · rintro ⟨rfl, rfl⟩
    exact hends
  · exact Nat.le_trans (earliest_le hv y hy) hle

/-- A client that sends two contexts, two hundred milliseconds apart, half-closes,
and reads what it gets. -/
def visit : Script :=
  let after (millis : Nat) := Instant.start.plus (.ofMillis millis)
  [(after 100, .send (.context ⟨"mug", "B1", ""⟩)), (after 200, .read),
    (after 300, .send (.context ⟨"mug", "B1", "large"⟩)), (after 300, .halfClose),
    (after 900, .read)]

/-- The visit ends with the deferred revision. -/
theorem ends_at_earliest_visit : Chronological .start visit ∧ 3 ≤ 3 ∧
    (Play.ofStart .standard .nothing 1 .start 1 3 visit).EndsAt
      ((Instant.start.plus (.ofMillis 300)).plus Config.standard.finalDelay)
      (.reported .completed) := by
  have hc : Chronological .start visit := by decide
  obtain ⟨t, v, he, hends, -⟩ :=
    ends_at_earliest .standard .nothing 1 .start 1 hc (show 3 ≤ 3 by decide)
  have hearliest : earliest (occasions .standard .start visit) =
      some ((Instant.start.plus (.ofMillis 300)).plus Config.standard.finalDelay,
        .reported .completed) := by decide
  obtain ⟨rfl, rfl⟩ := Prod.mk.inj (Option.some.inj (hearliest.symm.trans he))
  exact ⟨hc, Nat.le_refl 3, (hends _ _).mpr ⟨rfl, rfl⟩⟩

/-- A session without limit: its idle deadline is beyond what a clock can name. -/
def Config.endless : Config :=
  { Config.standard with idleTimeout := .ofSeconds (Word.size64 - 1) }

/-- A session whose idle deadline a clock can just name at the start, and at no later
moment. -/
def Config.lasting : Config :=
  { Config.standard with idleTimeout := ⟨Instant.horizon.nanos - 1⟩ }

/-- A session whose final moment is beyond what a clock can name. -/
def Config.unending : Config :=
  { Config.standard with finalDelay := .ofSeconds (Word.size64 - 1) }

/-- A client that sends two contexts, a hundred milliseconds apart, before the service
stops. -/
def lastVisit : Script :=
  let after (millis : Nat) := Instant.start.plus (.ofMillis millis)
  [(after 100, .send (.context ⟨"mug", "B1", ""⟩)),
    (after 200, .send (.context ⟨"mug", "B1", "large"⟩)), (after 300, .stop)]

/-- Each deadline that a clock cannot name breaks a session down when it is set, and
the session does not end as one that is shut down: at the very start, even if the
service stops then, at the first context, or at the second. -/
theorem brokenDown_endless :
    let endless := Play.ofStart .endless .nothing 1 .start 1 3 [(.start, .stop)]
    let lasting := Play.ofStart .lasting .nothing 1 .start 1 3 lastVisit
    let unending := Play.ofStart .unending .nothing 1 .start 1 3 lastVisit
    let after (millis : Nat) := Instant.start.plus (.ofMillis millis)
    (Chronological .start endless.script ∧ momentOf .stop endless.script = some .start ∧
      endless.EndsAt .start .brokenDown ∧ ¬ endless.EndsAt .start (.failed .shutdown)) ∧
    Chronological .start lastVisit ∧ momentOf .stop lastVisit = some (after 300) ∧
    (lasting.EndsAt (after 100) .brokenDown ∧ ¬ lasting.EndsAt (after 300) (.failed .shutdown)) ∧
    (unending.EndsAt (after 200) .brokenDown ∧
      ¬ unending.EndsAt (after 300) (.failed .shutdown)) := by
  intro endless lasting unending after
  have hendless : endless.EndsAt .start .brokenDown := ⟨2, .brokenDown, by decide, rfl, by decide⟩
  have hlasting : lasting.EndsAt (after 100) .brokenDown :=
    ⟨6, .brokenDown, by decide, rfl, by decide⟩
  have hunending : unending.EndsAt (after 200) .brokenDown :=
    ⟨10, .brokenDown, by decide, rfl, by decide⟩
  refine ⟨⟨by decide, by decide, hendless, fun h => ?_⟩, by decide, by decide,
    ⟨hlasting, fun h => ?_⟩, hunending, fun h => ?_⟩
  · cases (hendless.unique h).2
  · cases (hlasting.unique h).2
  · cases (hunending.unique h).2

end ProgressiveSearch.Session
