import ProgressiveSearch.Proofs.Exchange.Setting
import ProgressiveSearch.Proofs.Session.OutputLaw

/-! # A client and a session that talk to each other

A `Conversation` joins the setting of an exchange and the scene of a session: what
the caller says is carried to the session, what the session queues is carried to
the receiver, and either side may learn that the other has let go.  Carrying is a
move of its own, so anything may happen while a message is on its way; but nothing
that is still read is lost, and nothing overtakes.

Each move of a conversation is a move of the scene, of the setting, or of both
(`sceneMoves`, `settingMoves`).  So a run of the conversation is a run on each side
(`run_scene`, `run_setting`), and all that is known of those holds here; what is
new is that they hold together (`Linked`).
-/
namespace ProgressiveSearch

/-- The two sides of a call. -/
structure Conversation where
  scene : Session.Scene
  setting : Exchange.Setting

namespace Conversation

/-- What happens next. -/
inductive Move where
  | pass (d : Duration)
  /-- The service stops. -/
  | stop
  /-- The caller gives the call up. -/
  | cancel
  /-- The session takes a step. -/
  | serve
  /-- The caller takes a step. -/
  | call
  /-- The receiver takes a step. -/
  | receive
  /-- The oldest context on its way is brought to the session. -/
  | carryContext
  /-- The session's side learns that the client has half-closed. -/
  | carryHalfClose
  /-- The oldest reply on its way is brought to the client. -/
  | carryReply
  /-- The client's side learns that no more replies will come. -/
  | carryClose
  /-- The client's side learns that the session takes no more requests. -/
  | refuse
  /-- The session's side learns that the client reads no more replies. -/
  | desert
  deriving DecidableEq

/-- A call that is about to begin, at one moment on both sides. -/
def ofStart (config : Session.Config) (ranker : Ranker) (id : Nat) (request : Request)
    (params : Exchange.Params) (source : Random.Source) (start : Instant)
    (requestCapacity replyCapacity : Nat) : Conversation where
  scene := .ofStart config ranker id start requestCapacity replyCapacity
  setting := .ofStart request params source start requestCapacity replyCapacity

variable (x : Conversation)

/-- The arrival that can be carried to the session. -/
def nextArrival : List Arrival :=
  if x.scene.session.stream.requests.receiverGone ||
      x.setting.exchange.stream.requests.receiverGone then []
  else x.setting.exchange.stream.requests.queue.take 1

/-- The reply that can be carried to the client. -/
def nextReply : List Reply :=
  if x.setting.exchange.stream.replies.receiverGone then []
  else x.scene.session.stream.replies.queue.take 1

/-- What a move is for the session. -/
def sceneMoves : Move → List Session.Move
  | .pass d => [.pass d]
  | .stop => [.cue .stop]
  | .serve => [.step]
  | .carryContext => x.nextArrival.map fun a => .cue (.send a)
  | .carryHalfClose =>
    if x.setting.exchange.stream.requests.isExhausted then [.cue .halfClose] else []
  | .carryReply => x.nextReply.map fun _ => .cue .read
  | .desert => if x.setting.exchange.stream.replies.receiverGone then [.cue .leave] else []
  | .cancel | .call | .receive | .carryClose | .refuse => []

/-- What a move is for the exchange. -/
def settingMoves : Move → List Exchange.Move
  | .pass d => [.pass d]
  | .cancel => [.cue .cancel]
  | .call => [.call]
  | .receive => [.receive]
  | .carryContext => x.nextArrival.map fun _ => .cue .pick
  | .carryReply => x.nextReply.map fun r => .cue (.bring r)
  | .carryClose => if x.scene.session.stream.replies.isExhausted then [.cue .close] else []
  | .refuse => if x.scene.session.stream.requests.receiverGone then [.cue .refuse] else []
  | .stop | .serve | .carryHalfClose | .desert => []

/-- What a move does. -/
def act (m : Move) : Conversation where
  scene := x.scene.run (x.sceneMoves m)
  setting := x.setting.run (x.settingMoves m)

/-- **A run**: the conversation after a list of moves, whatever their order. -/
def run (moves : List Move) : Conversation := moves.foldl act x

theorem run_append (moves later : List Move) : x.run (moves ++ later) = (x.run moves).run later :=
  List.foldl_append

variable {x}

theorem run_scene (moves : List Move) :
    ∃ sceneMoves, (x.run moves).scene = x.scene.run sceneMoves := by
  induction moves generalizing x with
  | nil => exact ⟨[], rfl⟩
  | cons m moves ih =>
    obtain ⟨later, hl⟩ := ih (x := x.act m)
    exact ⟨x.sceneMoves m ++ later, by rw [Session.Scene.run_append]; exact hl⟩

theorem run_setting (moves : List Move) :
    ∃ settingMoves, (x.run moves).setting = x.setting.run settingMoves := by
  induction moves generalizing x with
  | nil => exact ⟨[], rfl⟩
  | cons m moves ih =>
    obtain ⟨later, hl⟩ := ih (x := x.act m)
    exact ⟨x.settingMoves m ++ later, by rw [Exchange.Setting.run_append]; exact hl⟩

/-! ## The two sides together -/

/-- What the peer has picked up is what was sent to the session, and what was
brought to the client is what has left the session's channel, the last of which
may be lost when the client no longer reads. -/
structure Linked (x : Conversation) : Prop where
  fed : x.scene.Fed x.setting.picked
  brought : x.setting.brought <+: x.scene.taken
  inStep : x.setting.exchange.stream.replies.receiverGone = false →
    x.setting.exchange.stream.replies.senderGone = false → x.setting.brought = x.scene.taken

theorem linked_ofStart (config : Session.Config) (ranker : Ranker) (id : Nat) (request : Request)
    (params : Exchange.Params) (source : Random.Source) (start : Instant)
    (requestCapacity replyCapacity : Nat) :
    (ofStart config ranker id request params source start requestCapacity
      replyCapacity).Linked where
  fed := Session.Scene.fed_ofStart ..
  brought := List.prefix_refl _
  inStep _ _ := rfl

/-- A move that brings the client nothing and leaves its side of the replies as it
was keeps the two in step. -/
theorem Linked.of_same {y : Conversation} (h : x.Linked) (hfed : y.scene.Fed y.setting.picked)
    (hb : y.setting.brought = x.setting.brought) (ht : y.scene.taken = x.scene.taken)
    (hr : y.setting.exchange.stream.replies = x.setting.exchange.stream.replies) : y.Linked where
  fed := hfed
  brought := by rw [hb, ht]; exact h.brought
  inStep hyr hys := by
    rw [hr] at hyr hys
    rw [hb, ht]
    exact h.inStep hyr hys

theorem nextArrival_cons {a : Arrival} {rest : List Arrival} (h : x.nextArrival = a :: rest) :
    rest = [] ∧ x.setting.exchange.stream.requests.receiverGone = false ∧
      ∃ later, x.setting.exchange.stream.requests.queue = a :: later := by
  unfold nextArrival at h
  split at h
  · cases h
  · rename_i hgone
    cases hq : x.setting.exchange.stream.requests.queue with
    | nil => simp [hq] at h
    | cons b later =>
      obtain ⟨rfl, rfl⟩ : b = a ∧ [] = rest := by simpa [hq] using h
      obtain ⟨-, hgone⟩ : x.scene.session.stream.requests.receiverGone = false ∧
          x.setting.exchange.stream.requests.receiverGone = false := by simpa using hgone
      exact ⟨rfl, hgone, later, rfl⟩

theorem nextReply_cons {r : Reply} {rest : List Reply} (h : x.nextReply = r :: rest) :
    rest = [] ∧ x.setting.exchange.stream.replies.receiverGone = false ∧
      ∃ later, x.scene.session.stream.replies.queue = r :: later := by
  unfold nextReply at h
  split at h
  · cases h
  · rename_i hgone
    cases hq : x.scene.session.stream.replies.queue with
    | nil => simp [hq] at h
    | cons b later =>
      obtain ⟨rfl, rfl⟩ : b = r ∧ [] = rest := by simpa [hq] using h
      exact ⟨rfl, by simpa using hgone, later, rfl⟩

theorem linked_carryContext (h : x.Linked) : (x.act .carryContext).Linked := by
  simp only [act, sceneMoves, settingMoves]
  cases hn : x.nextArrival with
  | nil => exact h
  | cons a rest =>
    obtain ⟨rfl, hgone, later, hq⟩ := nextArrival_cons hn
    have hpick : (x.setting.take .pick).picked = x.setting.picked ++ a.context?.toList ∧
        (x.setting.take .pick).brought = x.setting.brought ∧
        (x.setting.take .pick).exchange.stream.replies = x.setting.exchange.stream.replies := by
      simp [Exchange.Setting.take, hgone, hq, Exchange.Setting.withStream]
    obtain ⟨hp, hb, hr⟩ := hpick
    refine h.of_same ?_ hb ?_ hr
    · show (x.scene.act (.cue (.send a))).Fed (x.setting.take .pick).picked
      rw [hp]
      exact Session.Scene.fed_act h.fed (.cue (.send a))
    · exact Session.Scene.taken_send a

theorem linked_carryReply (h : x.Linked) : (x.act .carryReply).Linked := by
  simp only [act, sceneMoves, settingMoves]
  cases hn : x.nextReply with
  | nil => exact h
  | cons r rest =>
    obtain ⟨rfl, hgone, later, hq⟩ := nextReply_cons hn
    have htaken : (x.scene.take .read).taken = x.scene.taken ++ [r] := by
      simp [Session.Scene.take, hq, Session.Scene.withStream]
    have hfed : (x.scene.take .read).Fed x.setting.picked :=
      Session.Scene.fed_silent (m := .cue .read) h.fed rfl
    cases hs : x.setting.exchange.stream.replies.senderGone with
    | true =>
      -- the client's side has closed: what is carried now is lost, and nothing follows it
      have hbring : x.setting.take (.bring r) = x.setting := by
        simp [Exchange.Setting.take, hs]
      show Linked ⟨x.scene.take .read, x.setting.take (.bring r)⟩
      rw [hbring]
      refine ⟨hfed, ?_, fun _ hs' => ?_⟩
      · rw [htaken]
        exact h.brought.trans (List.prefix_append _ _)
      · exact absurd hs (by simpa using hs')
    | false =>
      have hbring : (x.setting.take (.bring r)).brought = x.setting.brought ++ [r] ∧
          (x.setting.take (.bring r)).picked = x.setting.picked := by
        simp [Exchange.Setting.take, hs, hgone, Exchange.Setting.withStream]
      obtain ⟨hb, hp⟩ := hbring
      have hsame : (x.setting.take (.bring r)).brought = (x.scene.take .read).taken := by
        rw [hb, htaken, h.inStep hgone hs]
      exact ⟨hp ▸ hfed, hsame ▸ List.prefix_refl _, fun _ _ => hsame⟩

theorem linked_act (h : x.Linked) (m : Move) : (x.act m).Linked := by
  cases m with
  | pass d => exact h.of_same (Session.Scene.fed_silent (m := .pass d) h.fed rfl) rfl rfl rfl
  | stop => exact h.of_same (Session.Scene.fed_silent (m := .cue .stop) h.fed rfl) rfl rfl rfl
  | cancel => exact h.of_same h.fed rfl rfl rfl
  | serve =>
    exact h.of_same (Session.Scene.fed_silent (m := .step) h.fed rfl) rfl
      Session.Scene.taken_step rfl
  | call =>
    obtain ⟨hp, hb, hr⟩ := x.setting.call_frame
    exact h.of_same (hp ▸ h.fed) hb rfl hr
  | receive =>
    -- a receiver that still reads has read all along
    obtain ⟨hp, hb, hs, hr⟩ := x.setting.receive_frame
    exact ⟨hp ▸ h.fed, hb ▸ h.brought, fun hyr hys => hb ▸ h.inStep (hr hyr) (hs.symm.trans hys)⟩
  | carryContext => exact linked_carryContext h
  | carryHalfClose =>
    simp only [act, sceneMoves, settingMoves]
    split
    · exact h.of_same (Session.Scene.fed_silent (m := .cue .halfClose) h.fed rfl) rfl rfl rfl
    · exact h
  | carryReply => exact linked_carryReply h
  | carryClose =>
    simp only [act, sceneMoves, settingMoves]
    split
    · exact ⟨h.fed, h.brought, nofun⟩
    · exact h
  | refuse =>
    simp only [act, sceneMoves, settingMoves]
    split
    · exact h.of_same h.fed rfl rfl rfl
    · exact h
  | desert =>
    simp only [act, sceneMoves, settingMoves]
    split
    · -- what is left behind was never brought, but the client no longer reads
      rename_i hgone
      exact ⟨Session.Scene.fed_silent (m := .cue .leave) h.fed rfl,
        h.brought.trans (List.prefix_append _ _), fun hyr => by cases hgone.symm.trans hyr⟩
    · exact h

theorem linked_run (h : x.Linked) (moves : List Move) : (x.run moves).Linked := by
  induction moves generalizing x with
  | nil => exact h
  | cons m moves ih => exact ih (linked_act h m)

end Conversation
end ProgressiveSearch
