import ProgressiveSearch.Proofs.Service.Accounts
import ProgressiveSearch.Proofs.Session.Shutdown

/-! # The sessions of a house

To a session the house in which it is held is a scene: what happens to it there
happens to it in a run of its own (`Seated`), in which the service stops when the
house tells its sessions to, and not before.  So whatever is known of a session in
every run of a scene is known of every session of a house.

If replies have room for three, no session of a house waits for room, and one that
has been told to stop always has a step to take.
-/
namespace ProgressiveSearch.Service.House

open Session (Scene)

variable {x y : House} {place : Nat} {session session' : Session}

/-- **The session in a place is that of a scene of its own.** -/
def Seated (x : House) (place : Nat) (session : Session) : Prop :=
  ∃ start room moves,
    let z := (Scene.ofStart x.service.config.session x.service.ranker (place + 1) start room
      x.service.config.streamBufferSize).run moves
    z.session = session ∧ z.now = x.now ∧ z.stopping = x.service.isCancelling ∧
      (x.service.isCancelling = false → .cue .stop ∉ moves)

/-- Nothing has happened that concerns the session. -/
theorem Seated.keep (h : x.Seated place session) (hc : y.service.config = x.service.config)
    (hk : y.service.ranker = x.service.ranker) (hn : y.now = x.now)
    (hs : y.service.isCancelling = x.service.isCancelling) : y.Seated place session := by
  unfold Seated
  rw [hc, hk, hn, hs]
  exact h

/-- A move of the house that is one of the session's scene. -/
theorem Seated.act (h : x.Seated place session) (m : Session.Move)
    (hc : y.service.config = x.service.config) (hk : y.service.ranker = x.service.ranker)
    (hact : ∀ z : Scene, z.session = session → z.now = x.now →
      z.stopping = x.service.isCancelling →
        (z.act m).session = session' ∧ (z.act m).now = y.now ∧
          (z.act m).stopping = y.service.isCancelling)
    (hquiet : y.service.isCancelling = false →
      x.service.isCancelling = false ∧ m ≠ .cue .stop) : y.Seated place session' := by
  obtain ⟨start, room, moves, hsession, hnow, hstopping, hmoves⟩ := h
  unfold Seated
  rw [hc, hk]
  obtain ⟨hsession', hnow', hstopping'⟩ := hact _ hsession hnow hstopping
  refine ⟨start, room, moves ++ [m], ?_, ?_, ?_, fun hfalse => ?_⟩
  · rw [Scene.run_append]
    exact hsession'
  · rw [Scene.run_append]
    exact hnow'
  · rw [Scene.run_append]
    exact hstopping'
  · obtain ⟨hx, hm⟩ := hquiet hfalse
    rw [List.mem_append, not_or, List.mem_singleton]
    exact ⟨hmoves hx, Ne.symm hm⟩

/-- What a cue makes of a session depends on nothing else. -/
theorem take_session {z z' : Scene} (h : z.session = z'.session) (c : Session.Cue) :
    (z.take c).session = (z'.take c).session := by
  cases c with
  | stop => exact h
  | halfClose | leave => simp [Scene.take, Scene.withStream, h]
  | send a =>
    simp only [Scene.take, h]
    split
    · exact h
    · simp [Scene.withStream, h]
  | read =>
    simp only [Scene.take, h]
    split
    · exact h
    · simp [Scene.withStream, h]

theorem now_take (z : Scene) (c : Session.Cue) : (z.take c).now = z.now := by
  obtain ⟨_, _, _, he⟩ := z.take_eq c
  rw [he]

/-- A cue of the client's is a cue of its session's scene. -/
theorem Seated.hears (h : x.Seated place session) (c : Session.Cue) (s : Service)
    (hc : s.config = x.service.config) (hk : s.ranker = x.service.ranker)
    (hs : s.isCancelling = x.service.isCancelling) :
    Seated { x with service := s } place ((x.scene session).take c).session := by
  by_cases hstop : c = .stop
  · subst hstop
    exact h.keep hc hk rfl hs
  · refine h.act (.cue c) hc hk (fun z hz hnow hz' => ⟨?_, ?_, ?_⟩) fun hfalse => ⟨?_, ?_⟩
    · exact take_session hz c
    · exact (now_take z c).trans hnow
    · exact (Scene.stopping_take hstop).trans (hz'.trans hs.symm)
    · exact hs ▸ hfalse
    · exact fun he => hstop (Session.Move.cue.inj he)

/-- Every session has its seat. -/
def AllSeated (x : House) : Prop :=
  ∀ place session, x.service.sessions[place]? = some session → x.Seated place session

/-- A session takes the seat of another, and the others keep theirs. -/
theorem AllSeated.set (h : x.AllSeated)
    (hs : y.service.sessions = x.service.sessions.set place session')
    (hkeep : ∀ p s, x.Seated p s → y.Seated p s) (hnew : y.Seated place session') :
    y.AllSeated := by
  intro p s hp
  rw [hs, List.getElem?_set] at hp
  split at hp
  · rename_i he
    subst he
    split at hp
    · obtain rfl := Option.some.inj hp
      exact hnew
    · cases hp
  · exact hkeep p s (h p s hp)

/-- A session of a house that is not over has room for its next reply. -/
theorem Seated.hasRoom (h : x.Seated place session) (ho : ∀ r, session.activity ≠ .over r)
    (hcap : 3 ≤ x.service.config.streamBufferSize) :
    session.stream.replies.hasRoom = true := by
  obtain ⟨start, room, moves, rfl, -, -, -⟩ := h
  refine Session.hasRoom_of_told (Session.told ..)
    (Scene.conserved_run (Scene.conserved_ofStart ..) moves) ho ?_
  rw [(Scene.run_replies moves).1]
  exact hcap

end ProgressiveSearch.Service.House
