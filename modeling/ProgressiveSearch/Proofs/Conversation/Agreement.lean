import ProgressiveSearch.Proofs.Conversation.Basic
import ProgressiveSearch.Proofs.RevisionBuffer

/-! # Client and session agree

The client's buffer is the beginning of what the session has queued, and what the
session has queued is the beginning of three batches that the client's request
fixes (`due`).  So the client selects from the first `k` of them, whatever the
timers, the network and the two sides' haste (`agreement`); and since the client
says two contexts at most, the session never has to complain of a third.
-/
namespace ProgressiveSearch.Conversation

/-- The batches that a request calls for. -/
def due (ranker : Ranker) (request : Request) : List Batch :=
  Session.answers ranker [request.firstContext, request.secondContext]

/-- What a client selects that has received the first `k` revisions. -/
def selection (ranker : Ranker) (request : Request) : Nat → Option Batch
  | 0 => none
  | 1 => some (ranker request.firstContext 1)
  | k => some (ranker request.secondContext (.ofNat k))

section Buffer
variable {ranker : Ranker} {request : Request} {heard : List Batch}

/-- A buffer filled with the first of the batches due holds them in order, and its
latest batch is the client's selection. -/
theorem buffer_due (hlabel : ∀ c revision, (ranker c revision).revision = revision)
    (h : heard <+: due ranker request) :
    heard.length ≤ 3 ∧ (RevisionBuffer.ofList heard).revisions = [1, 2, 3].take heard.length ∧
      (RevisionBuffer.ofList heard).latest? = selection ranker request heard.length := by
  have hascending : (due ranker request).Pairwise fun a b => a.revision < b.revision := by
    simp [due, Session.answers, Session.plan, hlabel]
  rw [RevisionBuffer.ofList_ascending (hascending.sublist h.sublist)]
  have hrevisions : (due ranker request).map Batch.revision = [1, 2, 3] := by
    simp [due, Session.answers, Session.plan, hlabel]
  refine ⟨h.length_le, ?_, ?_⟩
  · rw [← hrevisions, ← List.map_take, ← List.prefix_iff_eq_take.mp h]
    exact List.map_map
  · have hlen : heard.length ≤ 3 := h.length_le
    have htake := List.prefix_iff_eq_take.mp h
    generalize heard.length = k at hlen htake
    subst htake
    obtain rfl | rfl | rfl | rfl : k = 0 ∨ k = 1 ∨ k = 2 ∨ k = 3 := by omega
    · rfl
    · rfl
    · rfl
    · rfl

end Buffer

section Run
variable (config : Session.Config) (ranker : Ranker) (id : Nat) (request : Request)
  (params : Exchange.Params) (source : Random.Source) (start : Instant)
  (requestCapacity replyCapacity : Nat)

/-- Both sides have kept their own order, and the order between them. -/
theorem run_spec (moves : List Move) :
    let x := (ofStart config ranker id request params source start requestCapacity
      replyCapacity).run moves
    Session.Told x.scene.session x.scene.history ∧ x.scene.session.ranker = ranker ∧
      x.scene.Conserved ∧ x.setting.Orderly ∧ x.setting.exchange.request = request ∧
      x.Linked := by
  intro x
  obtain ⟨sceneMoves, hscene⟩ := run_scene moves
    (x := ofStart config ranker id request params source start requestCapacity replyCapacity)
  obtain ⟨settingMoves, hsetting⟩ := run_setting moves
    (x := ofStart config ranker id request params source start requestCapacity replyCapacity)
  refine ⟨?_, ?_, ?_, ?_, ?_, linked_run (linked_ofStart ..) moves⟩
  · rw [hscene]
    exact Session.told ..
  · rw [hscene]
    exact (Session.Scene.run_config_ranker sceneMoves).2
  · rw [hscene]
    exact Session.Scene.conserved_run (Session.Scene.conserved_ofStart ..) sceneMoves
  · rw [hsetting]
    exact Exchange.Setting.orderly_run (Exchange.Setting.orderly_ofStart ..) settingMoves
  · rw [hsetting]
    exact Exchange.Setting.run_request settingMoves

/-- The contexts that the session has read are the first of the client's two. -/
theorem contexts_read (moves : List Move) :
    ((ofStart config ranker id request params source start requestCapacity replyCapacity).run
      moves).scene.history.contexts <+: [request.firstContext, request.secondContext] := by
  obtain ⟨-, -, -, ho, hrequest, hlinked⟩ := run_spec config ranker id request params source start
    requestCapacity replyCapacity moves
  have hsaid := ho.spoken.within
  rw [hrequest] at hsaid
  exact hlinked.fed.read.trans (ho.handed.picked.trans hsaid)

/-- The batches that the receiver has heard are the first of those queued, and of
those due. -/
theorem heard_batches (moves : List Move) :
    let x := (ofStart config ranker id request params source start requestCapacity
      replyCapacity).run moves
    x.setting.replies.filterMap Reply.batch? <+: x.scene.history.written.filterMap Reply.batch? ∧
      x.scene.history.written.filterMap Reply.batch? <+: due ranker request := by
  intro x
  obtain ⟨htold, hranker, hconserved, ho, -, hlinked⟩ := run_spec config ranker id request params
    source start requestCapacity replyCapacity moves
  constructor
  · -- heard, brought, taken, written: each is the beginning of the next
    have htaken : x.scene.taken <+: x.scene.history.written := ⟨_, hconserved⟩
    exact (ho.attentive.heard.trans (hlinked.brought.trans htaken)).filterMap _
  · obtain ⟨batches, status, hshape, hbatches, -⟩ := (Session.outputLaw_of_told htold).written
    have hwritten : x.scene.history.written.filterMap Reply.batch? = batches := by
      rw [hshape, List.filterMap_append, List.filterMap_map, List.filterMap_map]
      cases status <;> simp [Function.comp_def, Reply.batch?]
    rw [hwritten]
    rw [hranker] at hbatches
    obtain ⟨more, hmore⟩ := contexts_read config ranker id request params source start
      requestCapacity replyCapacity moves
    exact hbatches.trans (by rw [due, ← hmore]; exact Session.answers_append ..)

end Run

end ProgressiveSearch.Conversation
