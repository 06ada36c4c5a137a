import ProgressiveSearch.Proofs.Session.Scene
import ProgressiveSearch.Service.Step

/-! # A service in its surroundings

A `House` is for a service what a scene is for a session: the service, the clock,
and a log of what has come to pass.  Around it calls are made, each as one step,
clients do what they do at their ends of the calls that were accepted, and the
service is asked to stop; it moves itself by the steps of its sessions and of the
task that stops it.  A run is a list of moves, in any order.

What a move can do is said once (`Change`, `change_act`), with the deeds that it adds
to the log: calls accepted and refused, sessions that end, and the three turns of a
service that stops.  No move looks at the log.
-/
namespace ProgressiveSearch.Service

/-- What happens around a service. -/
inductive Cue where
  /-- A call is made.  Its requests have this much room, and nothing is on them yet. -/
  | call (room : Nat)
  /-- Something happens at the client's end of the call in a place. -/
  | client (place : Nat) (c : Session.Cue)
  /-- The service is asked to stop. -/
  | stop
  deriving DecidableEq

/-- What happens next. -/
inductive Move where
  | cue (c : Cue)
  | pass (d : Duration)
  | step (role : Role)
  deriving DecidableEq

/-- What comes to pass in a service. -/
inductive Deed where
  /-- A call is accepted, and its session has this number. -/
  | accepted (id : Nat)
  | refused (status : Status)
  /-- A call was let in, but has no session. -/
  | brokenDown
  | ended (place : Nat) (result : Session.Result)
  | draining
  /-- The sessions that are left, so many, are told to stop. -/
  | told (left : Nat)
  /-- The service has stopped, with so many sessions left. -/
  | returned (left : Nat)
  deriving DecidableEq

/-- The turn that a stopping service takes between two phases. -/
def turn? (left : Nat) : Phase → Phase → Option Deed
  | .asked, .draining .. => some .draining
  | .draining .., .cancelling .. => some (.told left)
  | .cancelling .., .stopped => some (.returned left)
  | _, _ => none

/-- What comes to pass in a step of a task. -/
def deeds (before after : Service) : Role → List Deed
  | .session place => ((after.session? place).bind Session.result?).toList.map (.ended place)
  | .stopping => (turn? before.inFlight before.phase after.phase).toList

/-- What comes to pass when a call has been accepted. -/
def welcome (s : Service) : List Deed :=
  s.sessions.getLast?.toList.map fun session => .accepted session.tally.id

/-- A service, the clock, and what has come to pass. -/
structure House where
  now : Instant
  service : Service
  log : List (Instant × Deed)

namespace House

/-- A house whose service has not accepted a call yet. -/
def ofStart (config : Config) (ranker : Ranker) (start : Instant) : House where
  now := start
  service := .idle config ranker
  log := []

variable (x : House)

/-- What surrounds a session of the house. -/
def scene (session : Session) : Session.Scene where
  now := x.now
  stopping := x.service.isCancelling
  session
  history := .none
  taken := []

/-- The service has moved on to `s`, and this has come to pass. -/
def note (deeds : List Deed) (s : Service) : House :=
  { x with service := s, log := x.log ++ deeds.map (x.now, ·) }

/-- What a cue does. -/
def take : Cue → House
  | .call room =>
    match x.service.accept x.now (.ofCapacity room) with
    | .accepted s => x.note s.welcome s
    | .refused status => x.note [.refused status] x.service
    | .brokenDown s => x.note [.brokenDown] s
  | .client place c =>
    match x.service.session? place with
    | none => x
    | some session =>
      { x with service := x.service.withStream place ((x.scene session).take c).session.stream }
  | .stop => { x with service := x.service.stop }

/-- What a move does. -/
def act : Move → House
  | .cue c => x.take c
  | .pass d => { x with now := x.now.plus d }
  | .step role =>
    match x.service.step x.now role with
    | none => x
    | some s => x.note (deeds x.service s role) s

/-- **A run**: the house after a list of moves. -/
def run (moves : List Move) : House := moves.foldl act x

theorem run_append (moves later : List Move) : x.run (moves ++ later) = (x.run moves).run later :=
  List.foldl_append

end House

/-! ## The task that stops a service -/

/-- **What a step of the stopping task can do**, with the turn that it takes and the
phase that it leads to. -/
inductive Progress (now : Instant) (s : Service) : List Deed → Phase → Prop
  | starts (hp : s.phase = .asked) :
      Progress now s [.draining] (.draining (now.giveUpAfter s.config.shutdownTimeout) now)
  | waits {giveUp nextLook : Instant} (hp : s.phase = .draining giveUp nextLook)
      (hl : nextLook ≤ now) (hg : now < giveUp) :
      Progress now s [] (.draining giveUp (now.plus pace))
  | tells {giveUp nextLook : Instant} (hp : s.phase = .draining giveUp nextLook)
      (h : s.inFlight = 0 ∨ giveUp ≤ now) :
      Progress now s [.told s.inFlight] (.cancelling (now.giveUpAfter cancelTimeout) now)
  | insists {giveUp nextLook : Instant} (hp : s.phase = .cancelling giveUp nextLook)
      (hl : nextLook ≤ now) (hg : now < giveUp) (hn : s.inFlight ≠ 0) :
      Progress now s [] (.cancelling giveUp (now.plus pace))
  | returns {giveUp nextLook : Instant} (hp : s.phase = .cancelling giveUp nextLook)
      (h : s.inFlight = 0 ∨ giveUp ≤ now) : Progress now s [.returned s.inFlight] .stopped

section Step
variable {now giveUp nextLook : Instant} {s s' : Service} {place : Nat}

theorem look?_eq_clear (h : s.look? now giveUp nextLook = some .clear) : s.inFlight = 0 := by
  unfold look? at h
  split at h
  · rename_i hl
    exact hl.2
  · split at h
    · cases h
    · split at h <;> cases h

theorem look?_eq_timedOut (h : s.look? now giveUp nextLook = some .timedOut) : giveUp ≤ now := by
  unfold look? at h
  split at h
  · cases h
  · split at h
    · assumption
    · split at h <;> cases h

theorem look?_eq_again (h : s.look? now giveUp nextLook = some .again) :
    nextLook ≤ now ∧ now < giveUp ∧ s.inFlight ≠ 0 := by
  unfold look? at h
  split at h
  · cases h
  · rename_i hclear
    split at h
    · cases h
    · rename_i hg
      split at h
      · rename_i hl
        exact ⟨hl, Nat.lt_of_not_le hg, fun hn => hclear ⟨hl, hn⟩⟩
      · cases h

/-- Whoever does not look has nothing due yet. -/
theorem look?_eq_none (h : s.look? now giveUp nextLook = none) : now < nextLook ∧ now < giveUp := by
  unfold look? at h
  split at h
  · cases h
  · split at h
    · cases h
    · rename_i hg
      split at h
      · cases h
      · rename_i hl
        exact ⟨Nat.lt_of_not_le hl, Nat.lt_of_not_le hg⟩

/-- **Every step of the stopping task is progress**, and touches nothing but the phase
and the journal. -/
theorem progress_of_step (h : s.stepStopping now = some s') :
    ∃ phase journal, s' = { s with phase := phase, journal := journal } ∧
      s.Progress now (deeds s s' .stopping) phase := by
  unfold stepStopping at h
  cases hp : s.phase with
  | serving => simp [hp] at h
  | stopped => simp [hp] at h
  | asked =>
    simp only [hp, Option.some.injEq] at h
    subst h
    refine ⟨_, _, rfl, ?_⟩
    simp only [deeds, hp]
    exact .starts hp
  | draining giveUp nextLook =>
    simp only [hp] at h
    obtain ⟨look, hlook, rfl⟩ := Option.map_eq_some_iff.mp h
    cases look with
    | clear =>
      refine ⟨_, _, rfl, ?_⟩
      simp only [deeds, hp]
      exact .tells hp (.inl (look?_eq_clear hlook))
    | timedOut =>
      refine ⟨_, _, rfl, ?_⟩
      simp only [deeds, hp]
      exact .tells hp (.inr (look?_eq_timedOut hlook))
    | again =>
      obtain ⟨hl, hg, -⟩ := look?_eq_again hlook
      refine ⟨_, _, rfl, ?_⟩
      simp only [deeds, hp]
      exact .waits hp hl hg
  | cancelling giveUp nextLook =>
    simp only [hp] at h
    obtain ⟨look, hlook, rfl⟩ := Option.map_eq_some_iff.mp h
    cases look with
    | clear =>
      refine ⟨_, _, rfl, ?_⟩
      simp only [deeds, hp]
      exact .returns hp (.inl (look?_eq_clear hlook))
    | timedOut =>
      refine ⟨_, _, rfl, ?_⟩
      simp only [deeds, hp]
      exact .returns hp (.inr (look?_eq_timedOut hlook))
    | again =>
      obtain ⟨hl, hg, hn⟩ := look?_eq_again hlook
      refine ⟨_, _, rfl, ?_⟩
      simp only [deeds, hp]
      exact .insists hp hl hg hn

/-- A step of a session is one of the session in its place. -/
theorem step_of_stepSession (h : s.stepSession now place = some s') :
    ∃ before after journal, s.sessions[place]? = some before ∧
      before.step now s.isCancelling = some after ∧
      s' = { s with
        sessions := s.sessions.set place after
        inFlight := if after.isOver then s.inFlight - 1 else s.inFlight
        journal := journal } := by
  unfold stepSession at h
  obtain ⟨before, hb, h⟩ := Option.bind_eq_some_iff.mp h
  obtain ⟨after, ha, h⟩ := Option.bind_eq_some_iff.mp h
  obtain rfl := Option.some.inj h
  exact ⟨before, after, _, hb, ha, rfl⟩

theorem deeds_session {before after : Session} (hb : s.sessions[place]? = some before)
    (hs : s'.sessions = s.sessions.set place after) :
    deeds s s' (.session place) = after.result?.toList.map (.ended place) := by
  have hlt : place < s.sessions.length := (List.getElem?_eq_some_iff.mp hb).1
  simp only [deeds, session?, hs, List.getElem?_set_self hlt, Option.bind_some]

/-- A stream is replaced in its place. -/
theorem withStream_eq {session : Session} {stream : Stream}
    (h : s.sessions[place]? = some session) :
    s.withStream place stream =
      { s with sessions := s.sessions.set place { session with stream } } := by
  obtain ⟨hlt, rfl⟩ := List.getElem?_eq_some_iff.mp h
  have hsessions : s.sessions.modify place (fun session => { session with stream }) =
      s.sessions.set place { s.sessions[place] with stream } := by
    apply List.ext_getElem?
    intro i
    rw [List.getElem?_modify, List.getElem?_set]
    by_cases hi : place = i
    · subst hi
      simp [hlt]
    · simp [hi]
  rw [withStream, hsessions]

end Step

/-! ## What a move can do -/

namespace House

/-- The session of the next call. -/
def newcomer (x : House) (room : Nat) : Session :=
  .enter x.service.config.session x.service.ranker (.begin (x.service.admitted + 1) x.now)
    (.ofCapacities room x.service.config.streamBufferSize)

/-- **What a move can do**, with what then stands in the log. -/
inductive Change (x : House) : House → Prop
  | accepts (room : Nat) {journal : List Event} (hd : x.service.isDraining = false)
      (hc : Channel.isPossible x.service.config.streamBufferSize = true) :
      Change x (x.note [.accepted (x.service.admitted + 1)]
        { x.service with
          admitted := x.service.admitted + 1
          sessions := x.service.sessions ++ [x.newcomer room]
          inFlight := x.service.inFlight + 1
          journal := journal })
  | breaksDown {journal : List Event} (hd : x.service.isDraining = false)
      (hc : Channel.isPossible x.service.config.streamBufferSize = false) :
      Change x (x.note [.brokenDown]
        { x.service with admitted := x.service.admitted + 1, journal := journal })
  | refuses (hd : x.service.isDraining = true) :
      Change x (x.note [.refused Failure.shutdown.status] x.service)
  | hears {place : Nat} {session : Session} {c : Session.Cue}
      (hs : x.service.sessions[place]? = some session) :
      Change x { x with service := { x.service with
        sessions := x.service.sessions.set place ((x.scene session).take c).session } }
  | asked (hp : x.service.phase = .serving) :
      Change x { x with service := { x.service with phase := .asked } }
  | passes (d : Duration) : Change x { x with now := x.now.plus d }
  | serves {place : Nat} {before after : Session} {journal : List Event}
      (hs : x.service.sessions[place]? = some before)
      (ht : before.step x.now x.service.isCancelling = some after) :
      Change x (x.note (after.result?.toList.map (.ended place))
        { x.service with
          sessions := x.service.sessions.set place after
          inFlight := if after.isOver then x.service.inFlight - 1 else x.service.inFlight
          journal := journal })
  | progresses {deeds : List Deed} {phase : Phase} {journal : List Event}
      (h : x.service.Progress x.now deeds phase) :
      Change x (x.note deeds { x.service with phase := phase, journal := journal })
  | nothing : Change x x

variable {x : House}

/-- A cue of the client's is seen by the session through its stream only. -/
theorem session_take (session : Session) (c : Session.Cue) :
    ((x.scene session).take c).session =
      { session with stream := ((x.scene session).take c).session.stream } := by
  obtain ⟨_, _, _, he⟩ := (x.scene session).take_eq c
  rw [he]
  rfl

theorem change_call (room : Nat) : x.Change (x.take (.call room)) := by
  unfold take accept
  cases hd : x.service.isDraining with
  | true => exact .refuses hd
  | false =>
    cases hc : Channel.isPossible x.service.config.streamBufferSize with
    | true =>
      have hc' : Channel.isPossible x.service.letIn.config.streamBufferSize = true := hc
      simp only [hc', Bool.false_eq_true, if_false, if_true, welcome, List.getLast?_concat]
      exact .accepts room hd hc
    | false =>
      have hc' : Channel.isPossible x.service.letIn.config.streamBufferSize = false := hc
      simp only [hc', Bool.false_eq_true, if_false]
      exact .breaksDown hd hc

/-- **Every move is one of these changes.** -/
theorem change_act (m : Move) : x.Change (x.act m) := by
  cases m with
  | pass d => exact .passes d
  | cue c =>
    cases c with
    | call room => exact change_call room
    | client place c =>
      show x.Change (x.take (.client place c))
      unfold take
      dsimp only
      cases hs : x.service.session? place with
      | none => exact .nothing
      | some session =>
        dsimp only
        rw [withStream_eq hs, ← session_take]
        exact .hears hs
    | stop =>
      show x.Change { x with service := x.service.stop }
      unfold stop
      split
      · rename_i hp
        exact .asked hp
      · exact .nothing
  | step role =>
    show x.Change (match x.service.step x.now role with
      | none => x
      | some s => x.note (deeds x.service s role) s)
    cases hs : x.service.step x.now role with
    | none => exact .nothing
    | some s =>
      dsimp only
      cases role with
      | session place =>
        obtain ⟨before, after, journal, hb, ht, rfl⟩ := step_of_stepSession hs
        rw [deeds_session hb rfl]
        exact .serves hb ht
      | stopping =>
        obtain ⟨phase, journal, he, hprogress⟩ := progress_of_step hs
        have hchange : x.Change (x.note (deeds x.service s .stopping)
            { x.service with phase := phase, journal := journal }) := .progresses hprogress
        rwa [← he] at hchange

/-- What every change keeps is kept by every run. -/
theorem run_induction {P : House → Prop} (hkeeps : ∀ {x y : House}, x.Change y → P x → P y)
    (h : P x) (moves : List Move) : P (x.run moves) := by
  induction moves generalizing x with
  | nil => exact h
  | cons m moves ih => exact ih (hkeeps (change_act m) h)

end House

end ProgressiveSearch.Service
