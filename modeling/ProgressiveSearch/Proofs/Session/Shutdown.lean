import ProgressiveSearch.Proofs.Session.OutputLaw

/-! # What a stopping service can count on

A service that stops wants its sessions to end by themselves: without waiting for
the client to do anything (`EndsAlone`), and without another batch (`Silent`).  A
session hears of the stop at its select.  While it delivers a batch it looks at the
channel only, so all depends on what it is doing when the service stops:

* a session that delivers nothing, or has lost its reader, takes at most two more
  steps and queues no batch;
* a session that has a batch under way and a reader queues that batch first, as soon
  as there is room;
* if there is none (`Blocked`) it waits until its reader takes something or goes
  away, however long that takes (`blocked_run`).

With three places in the channel there is always room (`teardown_iff`).
-/
namespace ProgressiveSearch.Session

/-- A batch is under way to a reader who is there. -/
structure Writes (s : Session) : Prop where
  delivering : ∃ d, s.activity = .delivering d
  read : s.stream.replies.receiverGone = false

/-- And there is no room for it. -/
structure Blocked (s : Session) : Prop extends Writes s where
  full : s.stream.replies.hasRoom = false

/-- How many steps it takes a session to end once the service stops. -/
def stepsLeft (s : Session) : Nat :=
  match s.activity with
  | .entering | .delivering _ => 2
  | .selecting => 1
  | .over _ => 0

section Step
variable {now : Instant} {s s' : Session} {e : Deeds}

/-- A blocked session takes no step, whatever the service does. -/
theorem step_of_blocked (h : s.Blocked) (now : Instant) (stopping : Bool) :
    s.step now stopping = none := by
  obtain ⟨d, hd⟩ := h.delivering
  simp [step, hd, deliver?, h.read, h.full]

/-- Any other session that is not over takes one when the service stops. -/
theorem step_of_stopping (now : Instant) (ho : ∀ r, s.activity ≠ .over r) (hb : ¬ s.Blocked) :
    ∃ s', s.step now true = some s' := by
  cases hs : s.step now true with
  | some s' => exact ⟨s', rfl⟩
  | none =>
    rcases waits_of_step_none hs ho with hi | ⟨d, hd, hr, hfull⟩
    · exact absurd hi.serving (by simp)
    · exact absurd ⟨⟨⟨d, hd⟩, hr⟩, hfull⟩ hb

/-- A delivery for which there is room is made at once, -/
theorem step_of_delivers {d : Delivery} (h : s.Delivers d) (now : Instant) (stopping : Bool) :
    ∃ s', s.step now stopping = some s' := by
  cases hs : s.step now stopping with
  | some s' => exact ⟨s', rfl⟩
  | none =>
    have ho : ∀ r, s.activity ≠ .over r := by simp [h.delivering]
    rcases waits_of_step_none hs ho with hi | ⟨d', -, -, hfull⟩
    · cases hi.selecting.symm.trans h.delivering
    · cases hfull.symm.trans h.room

/-- After a step in a service that stops a session is at its select, or over. -/
theorem Transition.rests (h : s.Transition now true e s') :
    s'.activity = .selecting ∨ ∃ r, s'.activity = .over r := by
  cases h with
  | begins _ _ | deliversFirst _ _ _ | deliversSecond _ _ _ => exact .inl rfl
  | answers hl _ _ | ignores hl _ _ _ | halfCloses hl _ _ _ => cases hl.serving
  | defers ha _ _ _ => cases ha.serving
  | ends _ hl => exact .inr ⟨_, hl.activity⟩

theorem Transition.not_writes (h : s.Transition now true e s') : ¬ s'.Writes := by
  intro hw
  obtain ⟨d, hd⟩ := hw.delivering
  rcases h.rests with hs | ⟨r, hr⟩
  · cases hs.symm.trans hd
  · cases hr.symm.trans hd

theorem Transition.stepsLeft_lt (h : s.Transition now true e s') : stepsLeft s' < stepsLeft s := by
  cases h with
  | begins he _ => simp [stepsLeft, he]
  | deliversFirst hd _ _ | deliversSecond hd _ _ => simp [stepsLeft, hd.delivering]
  | answers hl _ _ | ignores hl _ _ _ | halfCloses hl _ _ _ => cases hl.serving
  | defers ha _ _ _ => cases ha.serving
  | ends he hl =>
    have hpos : 0 < stepsLeft s := by
      have ho := he.not_over
      unfold stepsLeft
      split
      · omega
      · omega
      · omega
      · rename_i r hr
        exact absurd hr (ho r)
    have hover : stepsLeft s' = 0 := by simp [stepsLeft, hl.activity]
    omega

/-- A status is no batch. -/
theorem batches_offered (s : Session) (status : Status) :
    (s.offered status).filterMap Reply.batch? = [] := by
  rcases s.offered_eq status with ho | ho
  · rw [ho]
    rfl
  · rw [ho]
    rfl

/-- A session with no batch under way queues none when the service stops. -/
theorem Transition.puts_of_stopping (h : s.Transition now true e s') (hw : ¬ s.Writes) :
    e.puts.filterMap Reply.batch? = [] := by
  cases h with
  | begins _ _ => rfl
  | answers hl _ _ | ignores hl _ _ _ | halfCloses hl _ _ _ => cases hl.serving
  | defers ha _ _ _ => cases ha.serving
  | deliversFirst hd _ _ | deliversSecond hd _ _ =>
    exact absurd ⟨⟨_, hd.delivering⟩, hd.read⟩ hw
  | ends he _ =>
    cases he with
    | stops _ _ | rejects _ _ _ _ | breaks _ _ => exact batches_offered s _
    | unnameable hd _ | completes hd _ => exact absurd ⟨⟨_, hd.delivering⟩, hd.read⟩ hw
    | _ => rfl

/-- It fails, unless it has not even looked at the clock. -/
theorem Transition.fails_of_stopping (h : s.Transition now true e s') (hw : ¬ s.Writes)
    (he : s.activity ≠ .entering) : ∃ f, s'.activity = .over (.failed f) := by
  cases h with
  | begins he' _ => exact absurd he' he
  | answers hl _ _ | ignores hl _ _ _ | halfCloses hl _ _ _ => cases hl.serving
  | defers ha _ _ _ => cases ha.serving
  | deliversFirst hd _ _ | deliversSecond hd _ _ =>
    exact absurd ⟨⟨_, hd.delivering⟩, hd.read⟩ hw
  | ends hexit hl =>
    cases hexit with
    | breaksAtStart he' _ => exact absurd he' he
    | unnameable hd _ | completes hd _ => exact absurd ⟨⟨_, hd.delivering⟩, hd.read⟩ hw
    | idles ha _ _ => cases ha.serving
    | closesEarly hl' _ _ _ => cases hl'.serving
    | _ => exact ⟨_, hl.activity⟩

/-- and queues its batch. -/
theorem Transition.puts_of_delivers {stopping : Bool} {d : Delivery}
    (h : s.Transition now stopping e s') (hd : s.Delivers d) : e.puts = [.batch d.batch] := by
  have hsame : ∀ d', s.activity = .delivering d' → d' = d := by
    intro d' hd'
    exact Activity.delivering.inj (hd'.symm.trans hd.delivering)
  have hselect : s.activity ≠ .selecting := by simp [hd.delivering]
  cases h with
  | begins he _ => cases he.symm.trans hd.delivering
  | answers hl _ _ | ignores hl _ _ _ | halfCloses hl _ _ _ => exact absurd hl.selecting hselect
  | defers ha _ _ _ => exact absurd ha.selecting hselect
  | deliversFirst hd' _ _ | deliversSecond hd' _ _ => rw [hsame _ hd'.delivering]
  | ends he _ =>
    cases he with
    | breaksAtStart he' _ => cases he'.symm.trans hd.delivering
    | stops hs _ | deserted hs _ _ => exact absurd hs hselect
    | unarmed ha _ _ _ | idles ha _ _ => exact absurd ha.selecting hselect
    | rejects hl _ _ _ | breaks hl _ | closesEarly hl _ _ _ =>
      exact absurd hl.selecting hselect
    | loses _ hr => cases hd.read.symm.trans hr
    | unnameable hd' _ | completes hd' _ => rw [hsame _ hd'.delivering]

end Step

namespace Scene

/-- **Two steps of its own are all that the session needs to come to an end**,
whatever happens before, between and after them. -/
def EndsAlone (x : Scene) : Prop :=
  ∀ later : List Move, 2 ≤ later.count .step → ∃ r, (x.run later).session.activity = .over r

/-- **No batch is queued any more**, whatever happens. -/
def Silent (x : Scene) : Prop :=
  ∀ later : List Move, (x.run later).history.written.filterMap Reply.batch? =
    x.history.written.filterMap Reply.batch?

variable {x : Scene}

/-! ## Waiting for room -/

/-- Nothing that comes from outside puts a batch under way, -/
theorem writes_of_take {c : Cue} (h : (x.take c).session.Writes) : x.session.Writes := by
  obtain ⟨_, _, _, he⟩ := x.take_eq c
  have hd := h.delivering
  rw [he] at hd
  have hc : c ≠ .leave := by
    intro hc
    subst hc
    cases h.read
  exact ⟨hd, receiverGone_take hc ▸ h.read⟩

/-- or takes room away. -/
theorem blocked_of_take {c : Cue} (h : (x.take c).session.Blocked) : x.session.Blocked := by
  refine ⟨writes_of_take h.toWrites, ?_⟩
  have hfull := h.full
  cases c with
  | stop | halfClose => exact hfull
  | leave => cases h.read
  | send a =>
    unfold take at hfull
    dsimp only at hfull
    split at hfull
    · exact hfull
    · exact hfull
  | read =>
    unfold take at hfull
    dsimp only at hfull
    split at hfull
    · exact hfull
    · rename_i r rest hq
      have hshort : ¬ rest.length < x.session.stream.replies.capacity := of_decide_eq_false hfull
      refine decide_eq_false ?_
      rw [hq, List.length_cons]
      omega

/-- Only the reader can help a session that waits for room. -/
theorem blocked_act (h : x.session.Blocked) {m : Move} (hr : m ≠ .cue .read)
    (hl : m ≠ .cue .leave) : (x.act m).session.Blocked := by
  cases m with
  | pass d => exact h
  | step =>
    have hs := step_of_blocked h x.now x.stopping
    simp only [act, hs]
    exact h
  | cue c =>
    obtain ⟨_, _, _, he⟩ := x.take_eq c
    have hsame : (x.take c).session.stream.replies = x.session.stream.replies := by
      cases c with
      | read => exact absurd rfl hr
      | leave => exact absurd rfl hl
      | stop | halfClose => rfl
      | send a =>
        unfold take
        dsimp only
        split
        · rfl
        · rfl
    have hd : ∃ d, (x.take c).session.activity = .delivering d := by
      rw [he]
      exact h.delivering
    exact ⟨⟨hd, by rw [act, hsame]; exact h.read⟩, by rw [act, hsame]; exact h.full⟩

/-- **A session that waits for room waits for its reader**, however long, and
whether the service stops or not. -/
theorem blocked_run (h : x.session.Blocked) {later : List Move} (hr : .cue .read ∉ later)
    (hl : .cue .leave ∉ later) : (x.run later).session.Blocked := by
  induction later generalizing x with
  | nil => exact h
  | cons m later ih =>
    rw [List.mem_cons, not_or] at hr hl
    exact ih (blocked_act h (Ne.symm hr.1) (Ne.symm hl.1)) hr.2 hl.2

/-! ## After the stop -/

/-- The service stops, and stays so. -/
theorem stopping_act (h : x.stopping = true) (m : Move) : (x.act m).stopping = true := by
  cases m with
  | pass d => exact h
  | step =>
    rcases x.act_step with he | ⟨e, s, -, he⟩
    · rw [he]
      exact h
    · rw [he]
      exact h
  | cue c =>
    by_cases hc : c = .stop
    · subst hc
      rfl
    · rw [act, stopping_take hc]
      exact h

/-- The session comes nearer to its end with each step, and nothing holds it up. -/
theorem stepsLeft_act (hs : x.stopping = true) (hb : ¬ x.session.Blocked) (m : Move) :
    ¬ (x.act m).session.Blocked ∧
      stepsLeft (x.act m).session ≤ stepsLeft x.session - [m].count .step := by
  cases m with
  | pass d => exact ⟨hb, Nat.le_refl _⟩
  | cue c =>
    obtain ⟨_, _, _, he⟩ := x.take_eq c
    have hleft : stepsLeft (x.take c).session = stepsLeft x.session := by
      rw [he]
      rfl
    exact ⟨fun h => hb (blocked_of_take h), Nat.le_of_eq hleft⟩
  | step =>
    by_cases ho : ∃ r, x.session.activity = .over r
    · obtain ⟨r, hr⟩ := ho
      have hover := (run_over hr [.step]).1
      have hzero : stepsLeft (x.act .step).session = 0 := by
        show stepsLeft (x.run [.step]).session = 0
        simp [stepsLeft, hover]
      refine ⟨fun h => ?_, ?_⟩
      · obtain ⟨d, hd⟩ := h.delivering
        cases hover.symm.trans hd
      · omega
    · have ho' : ∀ r, x.session.activity ≠ .over r := fun r hr => ho ⟨r, hr⟩
      obtain ⟨s, hstep⟩ := step_of_stopping x.now ho' hb
      obtain ⟨e, ht⟩ := transition_of_step hstep
      have hact : (x.act .step).session = s := by
        simp only [act, hs, hstep]
        rfl
      have hlt := ht.stepsLeft_lt
      rw [hact]
      refine ⟨fun h => ht.not_writes h.toWrites, ?_⟩
      rw [List.count_singleton_self]
      omega

/-- Unless it is held up when the service stops, the session is over after as many
steps as it has left. -/
theorem stepsLeft_run (hs : x.stopping = true) (hb : ¬ x.session.Blocked) (later : List Move) :
    stepsLeft (x.run later).session ≤ stepsLeft x.session - later.count .step := by
  induction later generalizing x with
  | nil => exact Nat.le_refl _
  | cons m later ih =>
    obtain ⟨hfree, hle⟩ := stepsLeft_act hs hb m
    have hrest := ih (stopping_act hs m) hfree
    have hcount : (m :: later).count .step = [m].count .step + later.count .step := by
      rw [← List.count_append, List.singleton_append]
    rw [run_cons, hcount]
    omega

theorem over_of_stepsLeft {s : Session} (h : stepsLeft s = 0) : ∃ r, s.activity = .over r := by
  unfold stepsLeft at h
  split at h
  · omega
  · omega
  · omega
  · rename_i r hr
    exact ⟨r, hr⟩

theorem stepsLeft_le (s : Session) : stepsLeft s ≤ 2 := by
  unfold stepsLeft
  split <;> omega

/-- **Only a session that waits for room can outlast the stop of its service.** -/
theorem endsAlone_iff (hs : x.stopping = true) : x.EndsAlone ↔ ¬ x.session.Blocked := by
  constructor
  · intro h hb
    -- two steps, and nothing else, leave it waiting
    have hwaits : (x.run [.step, .step]).session.Blocked :=
      blocked_run hb (by decide) (by decide)
    obtain ⟨d, hd⟩ := hwaits.delivering
    obtain ⟨r, hr⟩ := h [.step, .step] (by decide)
    cases hr.symm.trans hd
  · intro hb later hcount
    have hle := stepsLeft_run hs hb later
    have htwo := stepsLeft_le x.session
    exact over_of_stepsLeft (by omega)

/-- A session with no batch under way queues none and puts none under way. -/
theorem quiet_act (hs : x.stopping = true) (hw : ¬ x.session.Writes) (m : Move) :
    ¬ (x.act m).session.Writes ∧
      (x.act m).history.written.filterMap Reply.batch? =
        x.history.written.filterMap Reply.batch? := by
  cases m with
  | pass d => exact ⟨hw, rfl⟩
  | cue c =>
    obtain ⟨_, _, _, he⟩ := x.take_eq c
    refine ⟨fun h => hw (writes_of_take h), ?_⟩
    rw [act, he]
  | step =>
    rcases x.act_step with he | ⟨e, s, ht, he⟩
    · rw [he]
      exact ⟨hw, rfl⟩
    · rw [hs] at ht
      rw [he]
      refine ⟨ht.not_writes, ?_⟩
      show (x.history.add x.now e).written.filterMap _ = _
      rw [History.written_add, List.filterMap_append, ht.puts_of_stopping hw, List.append_nil]

theorem silent_of_not_writes (hs : x.stopping = true) (hw : ¬ x.session.Writes) : x.Silent := by
  intro later
  induction later generalizing x with
  | nil => rfl
  | cons m later ih =>
    obtain ⟨hw', hsame⟩ := quiet_act hs hw m
    exact (ih (stopping_act hs m) hw').trans hsame

/-- The reader takes everything. -/
theorem read_all (x : Scene) : ∃ later : List Move,
    (x.run later).session.activity = x.session.activity ∧
      (x.run later).history = x.history ∧
      (x.run later).session.stream.replies = { x.session.stream.replies with queue := [] } := by
  refine ⟨List.replicate x.session.stream.replies.queue.length (.cue .read), ?_⟩
  induction hq : x.session.stream.replies.queue generalizing x with
  | nil =>
    refine ⟨rfl, rfl, ?_⟩
    show x.session.stream.replies = _
    rw [← hq]
  | cons r rest ih =>
    have hread : (x.act (.cue .read)).session.stream.replies =
        { x.session.stream.replies with queue := rest } := by
      simp [act, take, hq, withStream]
    obtain ⟨_, _, _, he⟩ := x.take_eq .read
    obtain ⟨ha, hh, hr⟩ := ih (x.act (.cue .read)) (by rw [hread])
    rw [List.length_cons, List.replicate_succ, run_cons]
    refine ⟨?_, ?_, ?_⟩
    · rw [ha, act, he]
    · rw [hh, act, he]
    · rw [hr, hread]

/-- **Only a session that has a batch under way queues one after the stop.** -/
theorem silent_iff (hs : x.stopping = true) (hcap : 1 ≤ x.session.stream.replies.capacity) :
    x.Silent ↔ ¬ x.session.Writes := by
  refine ⟨fun h hw => ?_, silent_of_not_writes hs⟩
  -- once the reader has taken everything there is room for the batch
  obtain ⟨later, hactivity, hhistory, hreplies⟩ := x.read_all
  obtain ⟨d, hd⟩ := hw.delivering
  have hdelivers : (x.run later).session.Delivers d := by
    refine ⟨hactivity.trans hd, ?_, ?_⟩
    · rw [hreplies]
      exact hw.read
    · rw [hreplies]
      exact decide_eq_true hcap
  have hstep : ((x.run later).act .step).history.written =
      x.history.written ++ [.batch d.batch] := by
    obtain ⟨s, hs⟩ := step_of_delivers hdelivers (x.run later).now (x.run later).stopping
    obtain ⟨e, ht⟩ := transition_of_step hs
    simp only [act, hs, ht.deeds_eq, after]
    rw [History.written_add, ht.puts_of_delivers hdelivers, hhistory]
  have hsilent := h (later ++ [.step])
  rw [run_append, run_cons, run_nil, hstep, List.filterMap_append] at hsilent
  exact absurd hsilent (by simp [Reply.batch?])

end Scene

section Run
variable (config : Config) (ranker : Ranker) (id : Nat) (start : Instant)
  (requestCapacity replyCapacity : Nat)

/-- **Whom a stop tears down.**  The service stops after `moves`, and the session is
not over.  It ends without help and without another batch exactly when it has no
batch under way to a reader who is there; then its next step is a failure, unless it
has not begun.  It can be kept from its end only by a full channel, and then by its
reader alone; three places are never full. -/
theorem teardown_iff (hcap : 1 ≤ replyCapacity) (moves : List Move) :
    let x := ((Scene.ofStart config ranker id start requestCapacity replyCapacity).run moves).take
      .stop
    (∀ r, x.session.activity ≠ .over r) →
      (x.EndsAlone ∧ x.Silent ↔ ¬ x.session.Writes) ∧
      (¬ x.session.Writes → x.session.activity ≠ .entering →
        ∃ f, (x.act .step).session.activity = .over (.failed f)) ∧
      (x.EndsAlone ↔ ¬ x.session.Blocked) ∧
      (x.session.Blocked → ∀ later, .cue .read ∉ later → .cue .leave ∉ later →
        (x.run later).session.Blocked) ∧
      (3 ≤ replyCapacity → x.EndsAlone) := by
  intro x ho
  have hx : x = (Scene.ofStart config ranker id start requestCapacity replyCapacity).run
      (moves ++ [.cue .stop]) := by
    rw [Scene.run_append]
    rfl
  have hs : x.stopping = true := rfl
  have hcapacity : x.session.stream.replies.capacity = replyCapacity := by
    rw [hx]
    exact (Scene.run_replies _).1
  have hends := Scene.endsAlone_iff hs
  have hsilent := Scene.silent_iff hs (by omega)
  refine ⟨⟨fun h => hsilent.mp h.2, fun hw => ?_⟩, fun hw he => ?_, hends,
    fun hb later => Scene.blocked_run hb, fun h3 => hends.mpr fun hb => ?_⟩
  · exact ⟨hends.mpr fun hb => hw hb.toWrites, hsilent.mpr hw⟩
  · obtain ⟨s, hstep⟩ := step_of_stopping x.now ho fun hb => hw hb.toWrites
    obtain ⟨e, ht⟩ := transition_of_step hstep
    have hact : (x.act .step).session = s := by
      simp only [Scene.act, hs, hstep]
      rfl
    rw [hact]
    exact ht.fails_of_stopping hw he
  · -- at most two of the three places are taken
    have ht := told config ranker id start requestCapacity replyCapacity (moves ++ [.cue .stop])
    have hc : x.Conserved := by
      rw [hx]
      exact Scene.conserved_run (Scene.conserved_ofStart ..) _
    rw [← hx] at ht
    have hroom := hasRoom_of_told ht hc ho (by omega)
    cases hb.full.symm.trans hroom

end Run

/-- A client sends two contexts and reads nothing, and the session takes `n` steps
after the second. -/
def haste (n : Nat) : List Move :=
  let send := Move.cue (.send (.context ⟨"mug", "B1", ""⟩))
  [.step, send, .step, .step, send] ++ List.replicate n .step

/-- And then the service stops. -/
def hastened (replyCapacity n : Nat) : Scene :=
  ((Scene.ofStart .standard .nothing 1 .start 1 replyCapacity).run (haste n)).take .stop

/-- With three places the session awaits its final moment by then, and the stop tears
it down. -/
theorem teardown_three : 1 ≤ 3 ∧ (hastened 3 2).session.activity = .selecting ∧
    (hastened 3 2).EndsAlone ∧ (hastened 3 2).Silent ∧
    ∃ f, ((hastened 3 2).act .step).session.activity = .over (.failed f) := by
  have hs : (hastened 3 2).session.activity = .selecting := by decide
  have ho : ∀ r, (hastened 3 2).session.activity ≠ .over r := by simp [hs]
  have he : (hastened 3 2).session.activity ≠ .entering := by simp [hs]
  have hw : ¬ (hastened 3 2).session.Writes := by
    intro h
    obtain ⟨d, hd⟩ := h.delivering
    cases hs.symm.trans hd
  obtain ⟨hiff, hfails, -⟩ :=
    teardown_iff .standard .nothing 1 .start 1 3 (by decide) (haste 2) ho
  exact ⟨by decide, hs, (hiff.mpr hw).1, (hiff.mpr hw).2, hfails hw he⟩

/-- With one place it waits for room for revision 2.  The stop does not end it, an
hour later it is still there, and when its reader takes revision 1 it queues
revision 2 before it hears of the stop. -/
theorem outlasts_stop_one :
    (hastened 1 2).stopping = true ∧ ¬ (hastened 1 2).EndsAlone ∧ ¬ (hastened 1 2).Silent ∧
      ((hastened 1 2).run [.step, .pass (.ofSeconds 3600), .step]).session.isOver = false ∧
      ((hastened 1 2).run [.cue .read, .step]).history.written.filterMap Reply.batch? =
        [⟨[], 1⟩, ⟨[], 2⟩] := by
  have hwaits : ((hastened 1 2).run [.step, .step]).session.isOver = false := by decide
  refine ⟨rfl, fun h => ?_, fun h => ?_, by decide, by decide⟩
  · obtain ⟨r, hr⟩ := h [.step, .step] (by decide)
    simp [isOver, result?, hr] at hwaits
  · exact absurd (h [.cue .read, .step]) (by decide)

end ProgressiveSearch.Session
