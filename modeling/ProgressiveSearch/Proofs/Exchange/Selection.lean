import ProgressiveSearch.Proofs.Exchange.Setting
import ProgressiveSearch.Proofs.RevisionBuffer

/-! # What an exchange selects

The outcome of an exchange is told by the batches that its receiver took, in the
order in which it took them, and by nothing else (`SelectionLaw`): the revisions are
those that came, each once and in ascending order, and the batch selected is the one
that came last among those of the greatest revision.

What the receiver took is told by how it stands (`Took`): batches only, then at most
one reply that ended it.  It does not matter why the call ended, in which state the
requests were, or whether the first context was sent: the caller does not conclude
before the receiver has let go of the replies, and selects from what it left.
-/
namespace ProgressiveSearch.Exchange

/-- **The selection law**: what an outcome is, given the batches taken. -/
structure SelectionLaw (batches : List Batch) (o : Outcome) : Prop where
  ascending : o.revisions.Pairwise (· < ·)
  revisions : ∀ revision, revision ∈ o.revisions ↔ ∃ b ∈ batches, b.revision = revision
  nothing : o.selected = none ↔ batches = []
  selected : ∀ b, o.selected = some b ↔ RevisionBuffer.Newest batches b
  /-- The revision selected is the last of the revisions. -/
  last : o.selected.map Batch.revision = o.revisions.getLast?

/-- An exchange whose receiver has not been started: it has done nothing yet, or its
first context has been dealt with, sent or not.  All else is as it may be: the call
may have been given up, the requests may be full or refused, replies may have come. -/
structure Fresh (e : Exchange) : Prop where
  stage : e.stage = .starting ∧ e.firstSent = none ∨ e.stage = .resuming
  receiver : e.receiver = .absent
  buffer : e.buffer = .empty
  read : e.stream.replies.receiverGone = false

namespace Setting

/-- An exchange in its surroundings, with nothing heard and nothing picked up. -/
def around (e : Exchange) (now : Instant) : Setting where
  now
  exchange := e
  said := e.firstSent.toList.map fun t => (t, e.request.firstContext)
  picked := []
  brought := e.stream.replies.queue
  heard := []

variable {x : Setting}

/-- The batches taken. -/
def batches (x : Setting) : List Batch := x.replies.filterMap Reply.batch?

/-! ## What the receiver took -/

/-- **What the receiver has taken, told from how it stands.** -/
inductive Took (x : Setting) : Receiver → Prop
  | absent (h : x.replies = x.batches.map .batch) : Took x .absent
  | reading (h : x.replies = x.batches.map .batch) : Took x .reading
  /-- All that came were batches. -/
  | completed (h : x.replies = x.batches.map .batch) (hall : x.brought = x.replies)
      (hg : x.exchange.stream.replies.receiverGone = true) : Took x (.over .completed)
  /-- A failure came after the batches, and nothing after it counts. -/
  | failed {status : Status} (h : x.replies = x.batches.map .batch ++ [.failed status]) :
      Took x (.over (.failed status.code))
  /-- It was told to stop; what came before that counts. -/
  | stopped (h : x.replies = x.batches.map .batch) (hs : x.exchange.stopping = true) :
      Took x (.over .stopped)
  /-- It broke down over a reply. -/
  | faulted (h : x.replies = x.batches.map .batch ++ [.fault]) : Took x (.over .stopped)

/-- What a receiver that reads has taken is batches. -/
theorem Took.batches_of_reading (h : x.Took .reading) : x.replies = x.batches.map .batch := by
  cases h with
  | reading h => exact h

theorem took_take (h : x.Took x.exchange.receiver) (c : Cue) :
    (x.take c).Took (x.take c).exchange.receiver := by
  have hsame : (x.take c).exchange.receiver = x.exchange.receiver ∧
      (x.take c).exchange.stopping = x.exchange.stopping ∧ (x.take c).heard = x.heard := by
    obtain ⟨_, _, _, _, he⟩ := x.take_eq c
    rw [he]
    exact ⟨rfl, rfl, rfl⟩
  obtain ⟨hreceiver, hstopping, hheard⟩ := hsame
  have hreplies : (x.take c).replies = x.replies := congrArg (List.map Prod.snd) hheard
  have hbatches : (x.take c).batches = x.batches := congrArg (List.filterMap _) hreplies
  -- what comes in after the receiver has let go is not brought
  have hbrought : x.exchange.stream.replies.receiverGone = true →
      (x.take c).brought = x.brought ∧
        (x.take c).exchange.stream.replies.receiverGone = true := by
    intro hg
    cases c with
    | cancel | refuse | close => exact ⟨rfl, hg⟩
    | pick =>
      unfold take
      dsimp only
      split
      · exact ⟨rfl, hg⟩
      · exact ⟨rfl, hg⟩
    | bring r => simp [take, hg]
  rw [hreceiver]
  generalize x.exchange.receiver = receiver at h
  cases h with
  | absent h => exact .absent (by rw [hreplies, hbatches, h])
  | reading h => exact .reading (by rw [hreplies, hbatches, h])
  | completed h hall hg =>
    obtain ⟨hb, hg'⟩ := hbrought hg
    exact .completed (by rw [hreplies, hbatches, h]) (by rw [hb, hall, hreplies]) hg'
  | failed h => exact .failed (by rw [hreplies, hbatches, h])
  | stopped h hs => exact .stopped (by rw [hreplies, hbatches, h]) (hstopping.trans hs)
  | faulted h => exact .faulted (by rw [hreplies, hbatches, h])

theorem took_turn {said : List Context} {e : Exchange} (h : x.Took x.exchange.receiver)
    (hspoken : Spoken x.exchange x.contexts) (ht : x.exchange.Turn x.now said e) :
    (x.afterTurn said e).Took e.receiver := by
  rcases hspoken.receiver_turn ht with hsame | ⟨habsent, hreading⟩
  · rw [hsame]
    generalize x.exchange.receiver = receiver at h
    cases h with
    | absent h => exact .absent h
    | reading h => exact .reading h
    | completed h hall hg => exact .completed h hall (by rw [← hg, afterTurn, ht.speaks.replies])
    | failed h => exact .failed h
    | stopped h hs => exact .stopped h (ht.stopping hs)
    | faulted h => exact .faulted h
  · -- the receiver is started, and has taken nothing
    rw [habsent] at h
    rw [hreading]
    cases h with
    | absent h => exact .reading h

theorem took_hearing {heard : List Reply} {e : Exchange} (h : x.Took x.exchange.receiver)
    (ha : x.Attentive) (hh : x.exchange.Hearing x.now heard e) :
    (x.afterHearing heard e).Took e.receiver := by
  have hreading := hh.receiver.1
  rw [hreading] at h
  have hold := h.batches_of_reading
  have hreplies := x.replies_afterHearing heard e
  have hbatches : (x.afterHearing heard e).batches = x.batches ++ heard.filterMap Reply.batch? := by
    rw [batches, hreplies, List.filterMap_append]
    rfl
  cases hh with
  | isStopped hr hs =>
    refine .stopped ?_ hs
    rw [hreplies, hbatches, hold]
    simp
  | completes hr hs hq hg =>
    have hall : x.replies = x.brought := by
      have hwaiting := ha.waiting (by simp [hr])
      rwa [hq, List.append_nil] at hwaiting
    refine .completed ?_ ?_ rfl
    · rw [hreplies, hbatches, hold]
      simp
    · rw [hreplies, List.append_nil]
      exact hall.symm
  | @takes reply rest hr hs hq =>
    cases reply with
    | batch b =>
      show Took _ x.exchange.receiver
      rw [hr]
      refine .reading ?_
      rw [hreplies, hbatches, hold]
      simp [Reply.batch?]
    | failed status =>
      refine .failed ?_
      rw [hreplies, hbatches, hold]
      simp [Reply.batch?]
    | fault =>
      refine .faulted ?_
      rw [hreplies, hbatches, hold]
      simp [Reply.batch?]

/-! ## Along a run -/

/-- What an exchange keeps, whatever was on its stream when it began. -/
structure Faithful (x : Setting) : Prop where
  spoken : Spoken x.exchange x.contexts
  attentive : x.Attentive
  concluded : Concluded x.exchange
  took : x.Took x.exchange.receiver

theorem faithful_around {e : Exchange} (h : e.Fresh) (now : Instant) :
    (around e now).Faithful where
  spoken := by
    unfold Spoken
    rcases h.stage with ⟨hs, hf⟩ | hs
    · simp [around, contexts, hs, hf, h.receiver]
    · simp [around, contexts, hs, h.receiver, Function.comp_def]
  attentive := ⟨List.nil_prefix, fun _ => rfl, fun _ => h.read, h.buffer⟩
  concluded o ho := by
    rcases h.stage with ⟨hs, -⟩ | hs
    · cases hs.symm.trans ho
    · cases hs.symm.trans ho
  took := by
    show Took _ e.receiver
    rw [h.receiver]
    exact .absent rfl

theorem faithful_take (h : x.Faithful) (c : Cue) : (x.take c).Faithful := by
  obtain ⟨_, _, _, _, he⟩ := x.take_eq c
  refine ⟨?_, attentive_take h.attentive c, ?_, took_take h.took c⟩
  · rw [he]
    exact h.spoken
  · rw [he]
    exact h.concluded

/-- Time changes nothing. -/
theorem faithful_pass (h : x.Faithful) (now : Instant) : Faithful { x with now } := by
  refine ⟨h.spoken, ⟨h.attentive.heard, h.attentive.waiting, h.attentive.present,
    h.attentive.stored⟩, h.concluded, ?_⟩
  have htook := h.took
  show Took _ x.exchange.receiver
  generalize x.exchange.receiver = receiver at htook
  cases htook with
  | absent h => exact .absent h
  | reading h => exact .reading h
  | completed h hall hg => exact .completed h hall hg
  | failed h => exact .failed h
  | stopped h hs => exact .stopped h hs
  | faulted h => exact .faulted h

theorem faithful_turn {said : List Context} {e : Exchange} (h : x.Faithful)
    (ht : x.exchange.Turn x.now said e) : (x.afterTurn said e).Faithful := by
  refine ⟨?_, attentive_turn h.attentive h.spoken ht, concluded_turn ht,
    took_turn h.took h.spoken ht⟩
  rw [contexts_afterTurn]
  exact spoken_turn h.spoken ht

theorem faithful_hearing {heard : List Reply} {e : Exchange} (h : x.Faithful)
    (hh : x.exchange.Hearing x.now heard e) : (x.afterHearing heard e).Faithful :=
  ⟨spoken_hearing h.spoken hh, attentive_hearing h.attentive hh,
    concluded_hearing h.concluded hh, took_hearing h.took h.attentive hh⟩

theorem faithful_run (h : x.Faithful) (moves : List Move) : (x.run moves).Faithful := by
  refine run_induction (P := Faithful) ?_ ?_ ?_ ?_ h moves
  · intro y c hy
    exact faithful_take hy c
  · intro y d hy
    exact faithful_pass hy _
  · intro y said e ht hy
    exact faithful_turn hy ht
  · intro y heard e hh hy
    exact faithful_hearing hy hh

/-- An exchange that is over has selected from the batches taken. -/
theorem Faithful.selects {o : Outcome} (h : x.Faithful) (hs : x.exchange.stage = .over o) :
    o.selected = (RevisionBuffer.ofList x.batches).latest? ∧
      o.revisions = (RevisionBuffer.ofList x.batches).revisions := by
  obtain ⟨-, hselected, hrevisions⟩ := h.concluded o hs
  rw [h.attentive.stored] at hselected hrevisions
  exact ⟨hselected, hrevisions⟩

end Setting

/-- A buffer of these batches gives the outcome that the law wants. -/
theorem selectionLaw_of_buffer {batches : List Batch} {o : Outcome}
    (hs : o.selected = (RevisionBuffer.ofList batches).latest?)
    (hr : o.revisions = (RevisionBuffer.ofList batches).revisions) : SelectionLaw batches o where
  ascending := hr ▸ RevisionBuffer.ascending_revisions batches
  revisions revision := hr ▸ RevisionBuffer.mem_revisions_ofList
  nothing := hs ▸ RevisionBuffer.latest?_ofList_eq_none
  selected b := hs ▸ RevisionBuffer.latest?_ofList
  last := by rw [hs, hr, RevisionBuffer.getLast?_revisions, RevisionBuffer.highest?_ofList]

/-- **The selection law holds for every exchange that comes to an outcome**: for every
request, timing and stream, whatever happens around it and in whatever order, and
however it ends.  The batches that the law speaks of are those that the receiver
took, which are the first of the replies that came, up to the end, the failure or
the stop that ended it. -/
theorem selection_law {e : Exchange} (h : e.Fresh) (now : Instant) (moves : List Move)
    {o : Outcome} (ho : ((Setting.around e now).run moves).exchange.outcome? = some o) :
    let x := (Setting.around e now).run moves
    SelectionLaw x.batches o ∧ x.Took x.exchange.receiver ∧
      (∃ ending, x.exchange.receiver = .over ending) ∧ x.replies <+: x.brought := by
  intro x
  have hx : x.Faithful := Setting.faithful_run (Setting.faithful_around h now) moves
  have hs : x.exchange.stage = .over o := Setting.stage_of_outcome ho
  obtain ⟨hselected, hrevisions⟩ := hx.selects hs
  exact ⟨selectionLaw_of_buffer hselected hrevisions, hx.took, (hx.concluded o hs).1,
    hx.attentive.heard⟩

/-- Replies that come in any order: revision 7 twice, with different items, lower
revisions after it, and one more batch after the failure. -/
def disorder : List Reply :=
  [.batch ⟨[], 2⟩, .batch ⟨[], 7⟩, .batch ⟨[], 1⟩, .batch ⟨[⟨"B1", "a", .zero⟩], 7⟩, .batch ⟨[], 1⟩,
    .failed (.of .internal "broken"), .batch ⟨[], 9⟩]

/-- A call whose replies are these, and which is cut short by their failure. -/
def disordered : Setting :=
  (Setting.around (prepare ⟨"mug", "B1", "large"⟩ .standard ⟨fun _ => 0, 0⟩ (.ofCapacities 4 8))
    .start).run <|
      [.call, .call] ++ disorder.map (fun r => .cue (.bring r)) ++ [.call] ++
        List.replicate 6 .receive ++ [.call, .call]

/-- It selects the second of the batches of revision 7. -/
theorem selection_law_disordered : ∃ o, disordered.exchange.outcome? = some o ∧
    SelectionLaw disordered.batches o ∧ disordered.Took disordered.exchange.receiver ∧
      o.revisions = [1, 2, 7] ∧ o.selected = some ⟨[⟨"B1", "a", .zero⟩], 7⟩ := by
  have hf : (prepare ⟨"mug", "B1", "large"⟩ .standard ⟨fun _ => 0, 0⟩ (.ofCapacities 4 8)).Fresh :=
    ⟨.inl ⟨rfl, rfl⟩, rfl, rfl, rfl⟩
  have ho : disordered.exchange.outcome? = some
      ⟨some ⟨[⟨"B1", "a", .zero⟩], 7⟩, [1, 2, 7], none, .streamFailed .internal, .zero⟩ := by decide
  obtain ⟨hlaw, htook, -⟩ := selection_law hf .start _ ho
  exact ⟨_, ho, hlaw, htook, rfl, rfl⟩

end ProgressiveSearch.Exchange
