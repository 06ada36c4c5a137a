import ProgressiveSearch.Proofs.Exchange.Listening
import ProgressiveSearch.Proofs.Session.OutputLaw

/-! # What the other side hears of an abort

A session that aborts a call tries once to queue the status that says why.  It
does not wait for room, as it does for a batch.  So the reader learns of the
abort exactly when there was room at that moment (`abort_heard_iff`); else the
replies end like those of a call that completed, and the peer's receiver takes
them for that.

Before the abort there are at most two batches in the channel, so that three
places are always enough; with one or two it depends on how fast the reader is
(`abort_unheard_two`).
-/
namespace ProgressiveSearch.Session

/-- The failures with which a session aborts a call whose reader is there. -/
def aborts : Failure → Bool
  | .transport _ | .protocolViolation _ | .shutdown => true
  | .connect _ _ | .streamOpen _ | .channel _ | .peerGone => false

/-- An abort offers the status of its failure, and nothing else. -/
theorem Exit.abort_puts {now : Instant} {stopping : Bool} {s : Session} {e : Deeds} {f : Failure}
    (he : s.Exit now stopping e (.failed f)) (hf : aborts f = true) :
    e.puts = s.offered f.status := by
  cases he with
  | stops _ _ | rejects _ _ _ _ | breaks _ _ => rfl
  | deserted _ _ _ | unarmed _ _ _ _ | loses _ _ => cases hf

namespace Scene

/-- Whoever listens to the replies that the reader of a scene has taken comes to
this end. -/
def EndsFor (z : Scene) (ending : Exchange.ReceiveEnd) : Prop :=
  ∀ (peer : Exchange) (turns : List Instant), peer.Drains →
    peer.stream.replies.queue = z.taken → z.taken.length < turns.length →
      (peer.listen turns).receiver = .over ending

/-- The reader's last reply is the status of the failure, and the peer fails with
its code. -/
structure Heard (f : Failure) (z : Scene) : Prop where
  last : z.taken.getLast? = some (.failed f.status)
  peer : z.EndsFor (.failed f.status.code)

/-- The reader has got batches only, and the peer takes the call for completed. -/
structure Unheard (z : Scene) : Prop where
  batches : ∀ r ∈ z.taken, ∃ b, r = .batch b
  peer : z.EndsFor .completed

theorem endsFor_hears {z : Scene} {ending : Exchange.ReceiveEnd}
    (h : Exchange.hears z.taken = ending) : z.EndsFor ending := by
  intro peer turns hd hq hn
  rw [Exchange.listen_ends hd (by rwa [hq]), hq, h]

/-- The step with which a session aborts adds the status if there is room. -/
theorem abort_written {x : Scene} {f : Failure} (ho : ∀ r, x.session.activity ≠ .over r)
    (hr : x.session.stream.replies.receiverGone = false)
    (hend : (x.act .step).session.activity = .over (.failed f)) (hf : aborts f = true) :
    (x.act .step).history.written = x.history.written ++
      if x.session.stream.replies.hasRoom then [.failed f.status] else [] := by
  rcases x.act_step with he | ⟨e, s, ht, he⟩
  · rw [he] at hend
    exact absurd hend (ho _)
  · rw [he] at hend ⊢
    have hputs : e.puts = x.session.offered f.status := by
      cases ht with
      | ends hexit hl =>
        obtain rfl : _ = Result.failed f := Activity.over.inj (hl.activity.symm.trans hend)
        exact hexit.abort_puts hf
      | begins _ _ | answers _ _ _ | defers _ _ _ _ | deliversFirst _ _ _
      | deliversSecond _ _ _ =>
        cases hend
      | ignores _ _ _ _ | halfCloses _ _ _ _ => exact absurd hend (ho _)
    show (x.history.add x.now e).written = _
    rw [History.written_add, hputs, offered, if_neg (by simp [hr])]

theorem heard_of_taken {z : Scene} {f : Failure} {batches : List Batch}
    (h : z.taken = batches.map .batch ++ [.failed f.status]) : z.Heard f where
  last := by rw [h, List.getLast?_concat]
  peer := endsFor_hears (by rw [h, Exchange.hears_batches]; rfl)

theorem unheard_of_taken {z : Scene} {batches : List Batch} (h : z.taken = batches.map .batch) :
    z.Unheard where
  batches r hr := by
    rw [h] at hr
    obtain ⟨b, -, rfl⟩ := List.mem_map.mp hr
    exact ⟨b, rfl⟩
  peer := endsFor_hears (by
    have hend := Exchange.hears_batches batches []
    rwa [List.append_nil, ← h] at hend)

theorem Heard.not_unheard {z : Scene} {f : Failure} (h : z.Heard f) : ¬ z.Unheard := by
  intro hu
  obtain ⟨b, hb⟩ := hu.batches _ (List.mem_of_getLast? h.last)
  cases hb

end Scene

section Run
variable (config : Config) (ranker : Ranker) (id : Nat) (start : Instant)
  (requestCapacity replyCapacity : Nat)

/-- **An abort is heard exactly when there was room to tell of it.**  A session
takes the step that aborts the call after `moves`, and the reader, who never goes
away, has read everything `later`. -/
theorem abort_heard_iff (moves later : List Move) (f : Failure) :
    let x := (Scene.ofStart config ranker id start requestCapacity replyCapacity).run moves
    let z := (x.act .step).run later
    .cue .leave ∉ moves ++ later → (∀ r, x.session.activity ≠ .over r) →
    (x.act .step).session.activity = .over (.failed f) → aborts f = true →
    z.session.stream.replies.isExhausted = true →
      (z.Heard f ↔ x.session.stream.replies.hasRoom = true) ∧
      (z.Unheard ↔ x.session.stream.replies.hasRoom = false) ∧
      (3 ≤ replyCapacity → z.Heard f) := by
  intro x z hleave ho hend hf hread
  have ht := told config ranker id start requestCapacity replyCapacity moves
  have hc : x.Conserved := Scene.conserved_run (Scene.conserved_ofStart ..) moves
  have hm : .cue .leave ∉ moves := fun hm => hleave (List.mem_append_left _ hm)
  obtain ⟨hcap, hgone⟩ : x.session.stream.replies.capacity = replyCapacity ∧
      x.session.stream.replies.receiverGone = false :=
    ⟨(Scene.run_replies moves).1, (Scene.run_replies moves).2 hm⟩
  -- what the reader has taken in the end is what was queued before the abort, and the status
  have hempty : z.session.stream.replies.queue = [] := by
    have hexhausted := hread
    simp only [Channel.isExhausted, Bool.and_eq_true, List.isEmpty_iff] at hexhausted
    exact hexhausted.2
  have htaken : z.taken = x.history.written ++
      if x.session.stream.replies.hasRoom then [.failed f.status] else [] := by
    have hz : z.Conserved :=
      Scene.conserved_run (Scene.conserved_run hc [.step]) later
    rw [Scene.Conserved, hempty, List.append_nil] at hz
    rw [hz, ← Scene.abort_written ho hgone hend hf]
    exact congrArg History.written (Scene.run_over hend later).2
  obtain ⟨batches, hw, -, -⟩ := told_written ht ho
  rw [show x.history.written = _ from hw] at htaken
  have hheard : x.session.stream.replies.hasRoom = true → z.Heard f := by
    intro hroom
    rw [if_pos hroom] at htaken
    exact Scene.heard_of_taken htaken
  have hunheard : x.session.stream.replies.hasRoom = false → z.Unheard := by
    intro hroom
    rw [if_neg (by simp [hroom]), List.append_nil] at htaken
    exact Scene.unheard_of_taken htaken
  refine ⟨⟨fun h => ?_, hheard⟩, ⟨fun h => ?_, hunheard⟩, fun h3 => ?_⟩
  · by_cases hroom : x.session.stream.replies.hasRoom = true
    · exact hroom
    · exact absurd (hunheard (by simpa using hroom)) h.not_unheard
  · by_cases hroom : x.session.stream.replies.hasRoom = true
    · exact absurd h (hheard hroom).not_unheard
    · simpa using hroom
  · exact hheard (hasRoom_of_told ht hc ho (by rwa [hcap]))

end Run

/-! ## Three contexts at once

A client that sends three contexts before it reads any reply is turned away by a
strict session while its two batches are still in the channel. -/

/-- The session of the timing contract, but strict, over channels of this
capacity for the replies. -/
def strictScene (replyCapacity : Nat) : Scene :=
  .ofStart { Config.standard with strict := true } .nothing 1 .start 1 replyCapacity

/-- Three contexts are sent, and the first two are answered. -/
def hurry : List Move :=
  let send := Move.cue (.send (.context ⟨"mug", "B1", ""⟩))
  [.step, send, .step, .step, send, .step, .step, send]

/-- A peer to which these replies have come, and then the end of the stream. -/
def listener (replies : List Reply) : Exchange :=
  { Exchange.prepare ⟨"mug", "B1", ""⟩ .standard (.ofSeed 0) (.ofCapacities 1 1) with
    receiver := .reading
    stream := { requests := .ofCapacity 1, replies := ⟨1, replies, true, false⟩ } }

/-- With three places the violation is heard. -/
theorem abort_heard_three :
    (((strictScene 3).run hurry).act .step).session.activity =
        .over (.failed (.protocolViolation (excessReason 3))) ∧
      ((((strictScene 3).run hurry).act .step).run [.cue .read, .cue .read, .cue .read]).Heard
        (.protocolViolation (excessReason 3)) :=
  ⟨by decide, (abort_heard_iff _ _ _ _ _ 3 hurry [.cue .read, .cue .read, .cue .read] _
    (by decide) (fun r h => by cases h) (by decide) rfl (by decide)).2.2 (by decide)⟩

/-- With two places it is not: the session has ended in a violation, the reader
has read everything and never went away, and what it has read ends with a batch,
so that the peer completes. -/
theorem abort_unheard_two :
    let z := (((strictScene 2).run hurry).act .step).run [.cue .read, .cue .read]
    z.session.activity = .over (.failed (.protocolViolation (excessReason 3))) ∧
      z.session.stream.replies.isExhausted = true ∧
      z.session.stream.replies.receiverGone = false ∧
      z.taken = [.batch ⟨[], 1⟩, .batch ⟨[], 2⟩] ∧
      ((listener z.taken).listen [.start, .start, .start]).receiver = .over .completed := by
  refine ⟨?_, ?_, ?_, ?_, ?_⟩
  · decide
  · decide
  · decide
  · decide
  · decide

end ProgressiveSearch.Session
