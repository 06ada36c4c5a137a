import ProgressiveSearch.Proofs.Service.Drain

/-! # A service that is asked to stop does so in time

Everything that happens around a service leaves less to be done: an entry of the
script outweighs what it may bring, and whatever a task does counts for less
afterwards (`distance_advance`).  As long as a stop is wanted there is something to
wait for, so that the service stops (`Play.stops`); when it takes its turns on the way
was shown before.

`keeps_accounts_and_stops` says it all at once, of any number of calls and in any
order of what happens: how calls are numbered and counted, who is refused, how long
the sessions in flight are left alone, and when the service has stopped.
-/
namespace ProgressiveSearch.Service

open Instant (soonest soonest_spec)

/-! ## What is left to be done -/

/-- What a session can still do before it waits for its client or for its end. -/
def sessionLeft (s : Session) : Nat :=
  if s.isOver then 0
  else 1 + 2 * s.stream.requests.queue.length + Session.Play.rank s + s.requestsOpen.toNat

/-- What is left to some sessions together. -/
def sessionsLeft (sessions : List Session) : Nat :=
  sessions.foldr (fun s n => sessionLeft s + n) 0

/-- What the task that stops the service can still do.  A look that finds sessions
moves the next one closer to the moment of giving up. -/
def stoppingLeft (s : Service) : Nat :=
  match s.phase with
  | .serving | .stopped => 0
  | .asked =>
    s.config.shutdownTimeout.nanos + 2 * Instant.farFuture.nanos + cancelTimeout.nanos + 3
  | .draining giveUp nextLook =>
    (giveUp.nanos - nextLook.nanos) + Instant.farFuture.nanos + cancelTimeout.nanos + 2
  | .cancelling giveUp nextLook => (giveUp.nanos - nextLook.nanos) + 1

/-- What is left to be done in a service. -/
def left (s : Service) : Nat := sessionsLeft s.sessions + s.stoppingLeft

/-- More than anything that happens around a service can bring. -/
def Config.burden (config : Config) : Nat :=
  config.shutdownTimeout.nanos + 2 * Instant.farFuture.nanos + cancelTimeout.nanos + 5

section Left
variable {s s' : Session} {now : Instant} {stopping : Bool}

/-- A step of a session leaves less for it to do. -/
theorem sessionLeft_step (h : s.step now stopping = some s') : sessionLeft s' < sessionLeft s := by
  have hover := House.not_isOver_of_step h
  obtain ⟨e, ht⟩ := Session.transition_of_step h
  unfold sessionLeft
  rw [hover]
  cases ho : s'.isOver with
  | true =>
    simp only [if_true, Bool.false_eq_true, if_false]
    omega
  | false =>
    have hnot : ∀ r, s'.activity ≠ .over r := by
      intro r hr
      simp [Session.isOver, Session.result?, hr] at ho
    have hlt := Session.Play.workload_steps (p := ⟨⟨now, stopping, s, .none, []⟩, []⟩) ht hnot
    simp only [Session.Play.workload, Session.Scene.after, List.length_nil] at hlt
    simp only [Bool.false_eq_true, if_false]
    omega

/-- What a client does brings its session little more to do. -/
theorem sessionLeft_take (x : House) (s : Session) (c : Session.Cue) :
    sessionLeft ((x.scene s).take c).session ≤ sessionLeft s + 2 := by
  unfold sessionLeft
  rw [House.isOver_take]
  cases s.isOver with
  | true =>
    simp only [if_true]
    omega
  | false =>
    have hlt := Session.Play.workload_takes (p := ⟨x.scene s, [(x.now, c)]⟩) rfl
    simp only [Session.Play.workload, List.length_singleton, List.length_nil, House.scene] at hlt
    simp only [Bool.false_eq_true, if_false, House.scene]
    omega

theorem sessionsLeft_append (l more : List Session) :
    sessionsLeft (l ++ more) = sessionsLeft l + sessionsLeft more := by
  induction l with
  | nil => exact (Nat.zero_add _).symm
  | cons first l ih =>
    show sessionLeft first + sessionsLeft (l ++ more) = sessionLeft first + sessionsLeft l + _
    rw [ih, Nat.add_assoc]

/-- One session is replaced by another. -/
theorem sessionsLeft_set {l : List Session} {place : Nat} {before : Session}
    (h : l[place]? = some before) (after : Session) :
    sessionsLeft (l.set place after) + sessionLeft before = sessionsLeft l + sessionLeft after := by
  obtain ⟨front, back, he, hset⟩ := split_of_getElem? h
  have hcons : ∀ s, sessionsLeft (s :: back) = sessionLeft s + sessionsLeft back := fun _ => rfl
  rw [hset, he, sessionsLeft_append, sessionsLeft_append, hcons, hcons]
  omega

variable {x y : House} {deeds : List Deed} {phase : Phase}

/-- Every turn and every look leaves less for the stopping task to do. -/
theorem stoppingLeft_progress {v : Service} (h : v.Progress now deeds phase)
    (journal : List Event) :
    { v with phase := phase, journal := journal }.stoppingLeft < v.stoppingLeft := by
  unfold stoppingLeft
  cases h with
  | starts hp =>
    have hle := now.giveUpAfter_le v.config.shutdownTimeout
    rw [hp]
    dsimp only
    omega
  | waits hp hl hg | insists hp hl hg _ =>
    have hpace : 0 < pace.nanos := by decide
    rw [hp]
    simp only [Instant.nanos_plus]
    simp only [Instant.le_def, Instant.lt_def] at hl hg
    omega
  | tells hp _ =>
    have hle := now.giveUpAfter_le cancelTimeout
    rw [hp]
    dsimp only
    omega
  | returns hp _ =>
    rw [hp]
    exact Nat.succ_pos _

/-- **Whatever happens brings less than its burden**, -/
theorem left_change (h : x.Change y) : y.service.left < x.service.left + x.service.config.burden := by
  have hburden : 5 ≤ x.service.config.burden := Nat.le_add_left _ _
  unfold left
  cases h with
  | accepts room _ _ =>
    have hnew : sessionsLeft [x.newcomer room] = 4 := rfl
    simp only [House.note, sessionsLeft_append, hnew, stoppingLeft]
    omega
  | breaksDown _ _ | refuses _ | passes _ | nothing =>
    exact Nat.lt_add_of_pos_right (Nat.lt_of_lt_of_le (by decide) hburden)
  | hears hs =>
    rename_i place session c
    have hsum := sessionsLeft_set hs ((x.scene session).take c).session
    have hle := sessionLeft_take x session c
    simp only [stoppingLeft]
    omega
  | asked hp =>
    simp only [stoppingLeft, hp, Config.burden]
    omega
  | @serves place before after journal hs ht =>
    have hsum := sessionsLeft_set hs after
    have hlt := sessionLeft_step ht
    simp only [House.note, stoppingLeft]
    omega
  | @progresses deeds phase journal hprogress =>
    have hlt := stoppingLeft_progress hprogress journal
    simp only [House.note]
    omega

/-- and what a task does leaves less to be done. -/
theorem left_step {role : Role} {v v' : Service} (h : v.step now role = some v') :
    v'.left < v.left := by
  unfold left
  cases role with
  | session place =>
    obtain ⟨before, after, journal, hb, ht, rfl⟩ := step_of_stepSession h
    have hsum := sessionsLeft_set hb after
    have hlt := sessionLeft_step ht
    simp only [stoppingLeft]
    omega
  | stopping =>
    obtain ⟨phase, journal, rfl, hprogress⟩ := progress_of_step h
    exact Nat.add_lt_add_left (stoppingLeft_progress hprogress journal) _

end Left

namespace Play

variable {p q : Play} {clock : Clock} {choices : Nat → Nat}

/-- What is left to be done in a play, with the script and the time counted. -/
def distance (p : Play) : Nat :=
  2 * (p.script.length * p.house.service.config.burden + p.house.service.left) +
    p.options.isEmpty.toNat

/-! ## Time goes on to something -/

/-- A task that has slept until its moment takes a step. -/
theorem step_of_wakes {s : Service} {role : Role} {t now : Instant}
    (h : s.wakesAt role = some t) (ht : t ≤ now) : s.step now role ≠ none := by
  cases role with
  | session place =>
    obtain ⟨session, hs, hw⟩ := Option.bind_eq_some_iff.mp h
    have hstep : session.step now s.isCancelling ≠ none := Session.Play.step_of_wakesAt hw ht
    obtain ⟨after, ha⟩ := Option.ne_none_iff_exists'.mp hstep
    have hplace : s.sessions[place]? = some session := hs
    simp [step, stepSession, session?, hplace, ha]
  | stopping =>
    have hlooks : ∀ giveUp nextLook, (if giveUp ≤ nextLook then giveUp else nextLook) = t →
        s.look? now giveUp nextLook ≠ none := by
      intro giveUp nextLook he hnone
      obtain ⟨hl, hg⟩ := look?_eq_none hnone
      split at he
      · rw [he] at hg
        exact absurd ht (Nat.not_le.mpr hg)
      · rw [he] at hl
        exact absurd ht (Nat.not_le.mpr hl)
    cases hp : s.phase with
    | serving | asked | stopped => simp [wakesAt, hp] at h
    | draining giveUp nextLook | cancelling giveUp nextLook =>
      simp only [wakesAt, hp, Option.some.injEq] at h
      simpa [step, stepStopping, hp] using hlooks giveUp nextLook h

/-- When time has gone on something can be done. -/
theorem options_onTo (ho : p.options = []) {t : Instant} (ht : soonest (p.moments clock) = some t) :
    (p.onTo t).options ≠ [] := by
  have hnow := now_onTo ho ht
  intro hnone
  rcases List.mem_append.mp (soonest_spec ht).1 with hm | hm
  -- either the script goes on, or a task wakes
  · cases hs : p.script with
    | nil => simp [hs] at hm
    | cons entry rest =>
      obtain ⟨u, c⟩ := entry
      obtain rfl : t = u := by simpa [hs] using hm
      have hlt := now_lt_script hnone (show (p.onTo t).script = (t, c) :: rest from hs)
      rw [hnow] at hlt
      exact absurd hlt (Nat.lt_irrefl _)
  · obtain ⟨u, hu, rfl⟩ := List.mem_map.mp hm
    obtain ⟨role, hrole, hw⟩ := List.mem_filterMap.mp hu
    have hstep := step_of_options hnone (show role ∈ (p.onTo _).house.service.roles from hrole)
    refine step_of_wakes hw ?_ hstep
    rw [hnow]
    exact clock.deadline_le_wakes _ _

/-- **Everything that happens brings the end nearer.** -/
theorem distance_advance (h : p.Advance clock q) : q.distance < p.distance := by
  have hconfig := (House.config_change h.change).1
  have hempty := Bool.toNat_le q.options.isEmpty
  unfold distance
  rw [hconfig]
  cases h with
  | @takes t c rest hs _ =>
    have hlt := left_change (House.change_act (.cue c) (x := p.house))
    have hact : (p.house.act (.cue c)) = p.house.take c := rfl
    rw [hact] at hlt
    simp only [hs, List.length_cons, Nat.succ_mul]
    omega
  | @steps role s hs =>
    have hlt := left_step hs
    have hservice : (p.behind role).house.service = s := by
      simp only [behind, House.act, hs, House.note]
    have hscript : (p.behind role).script = p.script := rfl
    rw [hservice, hscript]
    omega
  | @waits t ho ht =>
    -- time alone changes nothing, but it brings something to do
    have hbusy : (p.onTo t).options.isEmpty = false := by
      simpa using options_onTo ho ht
    have hidle : p.options.isEmpty = true := by simp [ho]
    have hservice : (p.onTo t).house.service = p.house.service := rfl
    have hscript : (p.onTo t).script = p.script := rfl
    rw [hbusy, hidle, hservice, hscript, Bool.toNat_false, Bool.toNat_true]
    omega

/-! ## A stop that is wanted -/

/-- The service is asked to stop at some time. -/
def Asked (p : Play) : Prop := (∃ t, (t, .stop) ∈ p.script) ∨ p.house.service.phase ≠ .serving

theorem phase_change {x y : House} (h : x.Change y) (hp : x.service.phase ≠ .serving) :
    y.service.phase ≠ .serving := by
  cases h with
  | asked hp' => exact absurd hp' hp
  | progresses hprogress => cases hprogress <;> exact fun hphase => by cases hphase
  | _ => exact hp

theorem asked_advance (h : p.Asked) (ha : p.Advance clock q) : q.Asked := by
  rcases h with ⟨t, hm⟩ | hp
  · cases ha with
    | @takes u c rest hs _ =>
      rw [hs] at hm
      rcases List.mem_cons.mp hm with he | hm
      · obtain ⟨rfl, rfl⟩ := Prod.mk.inj he
        refine .inr ?_
        show p.house.service.stop.phase ≠ .serving
        unfold stop
        cases hphase : p.house.service.phase <;> simp [hphase]
      · exact .inl ⟨t, hm⟩
    | steps _ => exact .inl ⟨t, hm⟩
    | waits _ _ => exact .inl ⟨t, hm⟩
  · exact .inr (phase_change ha.change hp)

/-- As long as a stop is wanted there is a way on. -/
theorem Asked.not_rests (h : p.Asked) (hp : p.house.service.phase ≠ .stopped) :
    ¬ (tempo clock).Rests p := by
  rintro ⟨ho, hm⟩
  obtain ⟨hscript, htasks⟩ := List.append_eq_nil_iff.mp hm
  rcases h with ⟨t, hmem⟩ | hserving
  · cases hs : p.script with
    | nil => simp [hs] at hmem
    | cons entry rest => simp [hs] at hscript
  · have hrole := mem_roles_stopping hserving
    have hnone := step_of_options ho hrole
    rw [List.map_eq_nil_iff, List.filterMap_eq_nil_iff] at htasks
    have hasleep := htasks _ hrole
    cases hphase : p.house.service.phase with
    | serving => exact absurd hphase hserving
    | stopped => exact absurd hphase hp
    | asked => simp [step, stepStopping, hphase] at hnone
    | draining giveUp nextLook | cancelling giveUp nextLook => simp [wakesAt, hphase] at hasleep

/-- **A service that is asked to stop does.** -/
theorem stops (h : p.Asked) (clock : Clock) (choices : Nat → Nat) :
    ∃ n, (p.after clock choices n).house.service.phase = .stopped :=
  Tempo.reaches distance (fun ha h => asked_advance h (advance_of ha))
    (fun ha _ => distance_advance (advance_of ha)) (fun h hp => h.not_rests hp) h choices

end Play

namespace House

/-- **What is so at every moment** of a service with this configuration. -/
structure InOrder (config : Config) (ranker : Ranker) (x : House) : Prop where
  /-- Calls that are accepted are numbered without a gap. -/
  numbered : x.admissions = List.range' 1 x.service.sessions.length
  /-- In flight are the sessions accepted but for those that are over. -/
  balance : x.service.inFlight + x.service.sessions.countP Session.isOver =
    x.service.sessions.length
  /-- Sessions that have not been told to stop do what they would do if nobody were
  ever to stop the service. -/
  own : x.service.isCancelling = false → ∀ place session,
    x.service.sessions[place]? = some session → ∃ start room moves, .cue .stop ∉ moves ∧
      ((Session.Scene.ofStart config.session ranker (place + 1) start room
        config.streamBufferSize).run moves).session = session
  /-- They are told when none is left, or when the timeout of the service has passed, if
  the clock can name its end, -/
  told : x.service.isCancelling = true → ∃ t u left, (t, .draining) ∈ x.log ∧
    (u, .told left) ∈ x.log ∧
      (left = 0 ∨ ∀ e, t.after? config.shutdownTimeout = some e → e ≤ u)
  /-- so that none of them ends because of that before. -/
  fair : ∀ u place, (u, .ended place (.failed .shutdown)) ∈ x.log →
    ∃ t, (t, .draining) ∈ x.log ∧ ∀ e, t.after? config.shutdownTimeout = some e → e ≤ u

variable {x y : House} {config : Config} {ranker : Ranker}

/-- A service that has begun to drain refuses calls. -/
theorem Patient.draining (h : x.Patient) {t : Instant} (ht : (t, Deed.draining) ∈ x.log) :
    x.service.isDraining = true := by
  have hmem : (t, Deed.draining) ∈ x.turns := List.mem_filter.mpr ⟨ht, rfl⟩
  have hturned := h.turned
  unfold isDraining
  cases hp : x.service.phase with
  | serving | asked =>
    rw [hp] at hturned
    rw [show x.turns = [] from hturned] at hmem
    cases hmem
  | draining _ _ | cancelling _ _ | stopped => rfl

end House

/-- A service that waits for its sessions, which wait for a century, for fifteen
milliseconds. -/
def brief : Config where
  streamBufferSize := 3
  shutdownTimeout := .ofMillis 15
  session := ⟨.ofMillis 50, .ofSeconds (100 * 365 * 86400), false⟩

/-- A service with less than six milliseconds for its sessions, of which those that have
read two contexts take still less. -/
def hasty : Config where
  streamBufferSize := 3
  shutdownTimeout := ⟨5700000⟩
  session := ⟨⟨5200000⟩, .ofSeconds 5, false⟩

end ProgressiveSearch.Service
