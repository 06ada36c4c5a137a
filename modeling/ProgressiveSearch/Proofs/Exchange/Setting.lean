import ProgressiveSearch.Proofs.Exchange.Turn

/-! # An exchange in its surroundings

A `Setting` is for an exchange what a `Scene` is for a session: the exchange, the
clock, and the far ends of its stream.  Around it the call is given up, the peer
picks up the oldest request or refuses all further ones, replies are brought, and
the replies are closed; the exchange itself moves by the steps of its two tasks.
A run is a list of moves, in any order.

A setting keeps a record of what was said, picked up, brought and heard.  The
contexts said are the plan of the caller as far as it has come (`Spoken`), those
picked up are the first of them (`Handed`), and the buffer holds the batches among
the replies heard, which are the first of those brought (`Attentive`).
-/
namespace ProgressiveSearch

namespace Exchange

/-- What happens around an exchange. -/
inductive Cue where
  /-- The caller gives the call up. -/
  | cancel
  /-- The peer picks up the oldest request. -/
  | pick
  /-- The peer takes no more requests. -/
  | refuse
  /-- A reply comes in. -/
  | bring (r : Reply)
  /-- No more replies will come. -/
  | close
  deriving DecidableEq

/-- What happens next. -/
inductive Move where
  | cue (c : Cue)
  | pass (d : Duration)
  | call
  | receive
  deriving DecidableEq

/-- An exchange, its surroundings, and a record of what has gone to and fro. -/
structure Setting where
  now : Instant
  exchange : Exchange
  /-- The contexts put on the requests. -/
  said : List (Instant × Context)
  /-- The contexts picked up by the peer. -/
  picked : List Context
  /-- The replies that came in while there was someone to read them. -/
  brought : List Reply
  /-- The replies that the receiver took. -/
  heard : List (Instant × Reply)

/-- What the caller said between two states. -/
def uttered (x x' : Exchange) : List Context :=
  (x'.stream.requests.queue.drop x.stream.requests.queue.length).filterMap Arrival.context?

/-- What the receiver hears if it takes a step. -/
def next (x : Exchange) : List Reply :=
  if x.receiver = .reading ∧ x.stopping = false then x.stream.replies.queue.take 1 else []

namespace Setting

/-- An exchange that has not started, with nothing on its stream. -/
def ofStart (request : Request) (params : Params) (source : Random.Source) (start : Instant)
    (requestCapacity replyCapacity : Nat) : Setting where
  now := start
  exchange := .prepare request params source (.ofCapacities requestCapacity replyCapacity)
  said := []
  picked := []
  brought := []
  heard := []

variable (x : Setting)

/-- The contexts said. -/
def contexts : List Context := x.said.map Prod.snd

/-- The replies heard. -/
def replies : List Reply := x.heard.map Prod.snd

/-- Replaces what is known of the stream. -/
def withStream (stream : Stream) : Setting :=
  { x with exchange := { x.exchange with stream } }

/-- What a cue does. -/
def take : Cue → Setting
  | .cancel => { x with exchange := x.exchange.cancel }
  | .pick =>
    let stream := x.exchange.stream
    match stream.requests.receiverGone, stream.requests.queue with
    | false, a :: rest =>
      { x.withStream { stream with requests := { stream.requests with queue := rest } } with
        picked := x.picked ++ a.context?.toList }
    | _, _ => x
  | .refuse =>
    let stream := x.exchange.stream
    x.withStream { stream with requests := stream.requests.dropReceiver }
  | .bring r =>
    let stream := x.exchange.stream
    if stream.replies.receiverGone || stream.replies.senderGone then x
    else
      { x.withStream { stream with replies := stream.replies.put r } with
        brought := x.brought ++ [r] }
  | .close =>
    let stream := x.exchange.stream
    x.withStream { stream with replies := stream.replies.dropSender }

/-- What a move does. -/
def act : Move → Setting
  | .cue c => x.take c
  | .pass d => { x with now := x.now.plus d }
  | .call =>
    match x.exchange.call x.now with
    | none => x
    | some e =>
      { x with exchange := e, said := x.said ++ (uttered x.exchange e).map (x.now, ·) }
  | .receive =>
    match x.exchange.receive x.now with
    | none => x
    | some e => { x with exchange := e, heard := x.heard ++ x.exchange.next.map (x.now, ·) }

/-- **A run**: the setting after a list of moves. -/
def run (moves : List Move) : Setting := moves.foldl act x

end Setting

section Steps
variable {x x' : Exchange} {now : Instant}

theorem Turn.uttered_eq {said : List Context} (h : x.Turn now said x') : uttered x x' = said := by
  unfold uttered
  rw [h.speaks.queue, List.drop_left, List.filterMap_map]
  exact List.filterMap_some

theorem Hearing.next_eq {heard : List Reply} (h : x.Hearing now heard x') : x.next = heard := by
  unfold next
  cases h with
  | isStopped hr hs => simp [hs]
  | takes hr hs hq => simp [hr, hs, hq]
  | completes hr hs hq _ => simp [hq]

end Steps

namespace Setting

variable {x : Setting}

/-- The caller has said something more and moved on to `e`. -/
def afterTurn (x : Setting) (said : List Context) (e : Exchange) : Setting :=
  { x with exchange := e, said := x.said ++ said.map (x.now, ·) }

/-- The receiver has heard something more and moved on to `e`. -/
def afterHearing (x : Setting) (heard : List Reply) (e : Exchange) : Setting :=
  { x with exchange := e, heard := x.heard ++ heard.map (x.now, ·) }

theorem contexts_afterTurn (said : List Context) (e : Exchange) :
    (x.afterTurn said e).contexts = x.contexts ++ said := by
  simp [contexts, afterTurn, Function.comp_def]

theorem replies_afterHearing (heard : List Reply) (e : Exchange) :
    (x.afterHearing heard e).replies = x.replies ++ heard := by
  simp [replies, afterHearing, Function.comp_def]

theorem act_call : x.act .call = x ∨
    ∃ said e, x.exchange.Turn x.now said e ∧ x.act .call = x.afterTurn said e := by
  cases hs : x.exchange.call x.now with
  | none => exact Or.inl (by simp only [act, hs])
  | some e =>
    obtain ⟨said, ht⟩ := turn_of_call hs
    exact Or.inr ⟨said, e, ht, by simp only [act, hs, ht.uttered_eq, afterTurn]⟩

theorem act_receive : x.act .receive = x ∨
    ∃ heard e, x.exchange.Hearing x.now heard e ∧ x.act .receive = x.afterHearing heard e := by
  cases hs : x.exchange.receive x.now with
  | none => exact Or.inl (by simp only [act, hs])
  | some e =>
    obtain ⟨heard, hh⟩ := hearing_of_receive hs
    exact Or.inr ⟨heard, e, hh, by simp only [act, hs, hh.next_eq, afterHearing]⟩

/-- The caller's step is seen on the requests only. -/
theorem call_frame : (x.act .call).picked = x.picked ∧ (x.act .call).brought = x.brought ∧
    (x.act .call).exchange.stream.replies = x.exchange.stream.replies := by
  rcases x.act_call with he | ⟨said, e, ht, he⟩
  · rw [he]
    exact ⟨rfl, rfl, rfl⟩
  · rw [he]
    exact ⟨rfl, rfl, ht.speaks.replies⟩

/-- The receiver's step is seen on the replies only, of which it may let go. -/
theorem receive_frame : (x.act .receive).picked = x.picked ∧
    (x.act .receive).brought = x.brought ∧
    (x.act .receive).exchange.stream.replies.senderGone = x.exchange.stream.replies.senderGone ∧
    ((x.act .receive).exchange.stream.replies.receiverGone = false →
      x.exchange.stream.replies.receiverGone = false) := by
  rcases x.act_receive with he | ⟨heard, e, hh, he⟩
  · rw [he]
    exact ⟨rfl, rfl, rfl, id⟩
  · rw [he]
    exact ⟨rfl, rfl, hh.minds.closed, hh.present⟩

/-- What cues, time, turns and hearings keep is kept by every run. -/
theorem run_induction {P : Setting → Prop} (hcue : ∀ x c, P x → P (x.take c))
    (hpass : ∀ (x : Setting) d, P x → P { x with now := x.now.plus d })
    (hturn : ∀ (x : Setting) said e, x.exchange.Turn x.now said e → P x → P (x.afterTurn said e))
    (hhearing : ∀ (x : Setting) heard e, x.exchange.Hearing x.now heard e → P x →
      P (x.afterHearing heard e))
    (h : P x) (moves : List Move) : P (x.run moves) := by
  induction moves generalizing x with
  | nil => exact h
  | cons m moves ih =>
    refine ih (x := x.act m) ?_
    cases m with
    | cue c => exact hcue x c h
    | pass d => exact hpass x d h
    | call =>
      rcases x.act_call with he | ⟨said, e, ht, he⟩
      · rw [he]; exact h
      · rw [he]; exact hturn x said e ht h
    | receive =>
      rcases x.act_receive with he | ⟨heard, e, hh, he⟩
      · rw [he]; exact h
      · rw [he]; exact hhearing x heard e hh h

/-- A cue touches neither the stage of an exchange nor what its tasks hold. -/
theorem take_eq (c : Cue) : ∃ stream cancelled picked brought, x.take c =
    { x with
      exchange := { x.exchange with stream := stream, cancelled := cancelled }
      picked := picked
      brought := brought } := by
  cases c with
  | cancel => exact ⟨x.exchange.stream, true, _, _, rfl⟩
  | refuse | close => exact ⟨_, x.exchange.cancelled, _, _, rfl⟩
  | pick =>
    unfold take
    dsimp only
    split
    · exact ⟨_, x.exchange.cancelled, _, _, rfl⟩
    · exact ⟨_, x.exchange.cancelled, _, _, rfl⟩
  | bring r =>
    unfold take
    dsimp only
    split
    · exact ⟨_, x.exchange.cancelled, _, _, rfl⟩
    · exact ⟨_, x.exchange.cancelled, _, _, rfl⟩

theorem now_take (c : Cue) : (x.take c).now = x.now := by
  obtain ⟨_, _, _, _, he⟩ := x.take_eq c
  rw [he]

theorem stage_take (c : Cue) : (x.take c).exchange.stage = x.exchange.stage := by
  obtain ⟨_, _, _, _, he⟩ := x.take_eq c
  rw [he]

theorem receiver_take (c : Cue) : (x.take c).exchange.receiver = x.exchange.receiver := by
  obtain ⟨_, _, _, _, he⟩ := x.take_eq c
  rw [he]

/-- What is picked up is what has waited longest. -/
theorem take_pick {a : Arrival} {rest : List Arrival}
    (hg : x.exchange.stream.requests.receiverGone = false)
    (hq : x.exchange.stream.requests.queue = a :: rest) :
    x.take .pick = { x.withStream { x.exchange.stream with
      requests := { x.exchange.stream.requests with queue := rest } } with
      picked := x.picked ++ a.context?.toList } := by
  simp [take, hg, hq]

/-! ## What the caller says -/

/-- **What the caller has said, told from where it stands.**  The receiver is not
there before the caller is done with the first context. -/
def Spoken (e : Exchange) (contexts : List Context) : Prop :=
  match e.stage with
  | .starting | .offeringFirst => contexts = [] ∧ e.receiver = .absent
  | .resuming =>
    contexts = e.firstSent.toList.map (fun _ => e.request.firstContext) ∧ e.receiver = .absent
  | .pausing _ | .offeringSecond => contexts = [e.request.firstContext]
  | .deciding _ => contexts = [e.request.firstContext, e.request.secondContext]
  | .releasing _ | .over _ | .brokenDown =>
    contexts <+: [e.request.firstContext, e.request.secondContext]

section Spoken
variable {e e' : Exchange} {contexts said : List Context} {heard : List Reply} {now : Instant}

/-- Whatever it has come to, the caller says nothing but its two contexts. -/
theorem Spoken.within (h : Spoken e contexts) :
    contexts <+: [e.request.firstContext, e.request.secondContext] := by
  unfold Spoken at h
  split at h
  · exact h.1 ▸ List.nil_prefix
  · exact h.1 ▸ List.nil_prefix
  · rw [h.1]
    cases e.firstSent with
    | none => exact List.nil_prefix
    | some _ => exact ⟨[_], rfl⟩
  · exact h ▸ ⟨[_], rfl⟩
  · exact h ▸ ⟨[_], rfl⟩
  · exact h ▸ List.prefix_refl _
  · exact h
  · exact h
  · exact h

/-- The caller leaves the receiver alone, or starts one where there is none. -/
theorem Spoken.receiver_turn (h : Spoken e contexts) (ht : e.Turn now said e') :
    e'.receiver = e.receiver ∨ e.receiver = .absent ∧ e'.receiver = .reading := by
  rcases ht.receiver with hsame | ⟨hresuming, hreading⟩
  · exact .inl hsame
  · unfold Spoken at h
    simp only [hresuming] at h
    exact .inr ⟨h.2, hreading⟩

theorem spoken_turn (h : Spoken e contexts) (ht : e.Turn now said e') :
    Spoken e' (contexts ++ said) := by
  have hwithin := h.within
  unfold Spoken at h ⊢
  cases ht with
  | announces hs =>
    simp only [hs] at h
    simpa [announce] using h
  | sendsFirst hs _ =>
    simp only [hs] at h
    simpa [say] using h
  | losesFirst hs _ =>
    simp only [hs] at h
    simpa using h
  | pauses hs hf _ =>
    simp only [hs, hf] at h
    simpa using h.1
  | sendsSecond hs _ =>
    -- even if the decision cannot be timed, both contexts have been said
    simp only [hs] at h
    obtain ⟨stage, source, drawn, journal, he, hstage⟩ :=
      (e.say e.request.secondContext).decide_spec now
    rw [he, h]
    rcases hstage with rfl | ⟨deadline, rfl⟩
    · exact List.prefix_refl _
    · rfl
  | resumes hs _ =>
    simp only [hs] at h
    simpa [startSecond, record] using h
  | _ => exact (List.append_nil contexts).symm ▸ hwithin

theorem spoken_hearing (h : Spoken e contexts) (hh : e.Hearing now heard e') :
    Spoken e' contexts := by
  have hm := hh.minds
  unfold Spoken at h ⊢
  rw [hm.stage, hm.request, hm.firstSent]
  split at h
  -- before the caller is done with the first context there is no receiver to hear
  · exact absurd hh.receiver.1 (by simp [h.2])
  · exact absurd hh.receiver.1 (by simp [h.2])
  · exact absurd hh.receiver.1 (by simp [h.2])
  · exact h
  · exact h
  · exact h
  · exact h
  · exact h
  · exact h

end Spoken

/-! ## What the peer picks up -/

/-- The contexts picked up are the first of those said, and as long as the peer
takes requests the others wait. -/
structure Handed (x : Setting) : Prop where
  picked : x.picked <+: x.contexts
  waiting : x.exchange.stream.requests.receiverGone = false →
    x.picked ++ x.exchange.stream.requests.waiting = x.contexts

theorem handed_take (h : x.Handed) (c : Cue) : (x.take c).Handed := by
  cases c with
  | cancel | close => exact ⟨h.picked, h.waiting⟩
  | refuse => exact ⟨h.picked, nofun⟩
  | bring r =>
    unfold take
    dsimp only
    split
    · exact h
    · exact ⟨h.picked, h.waiting⟩
  | pick =>
    unfold take
    dsimp only
    split
    · rename_i a rest hg hq
      have hall := h.waiting hg
      rw [Channel.waiting_cons hq, ← List.append_assoc] at hall
      exact ⟨⟨_, hall⟩, fun _ => hall⟩
    · exact h

theorem handed_turn {said : List Context} {e : Exchange} (h : x.Handed)
    (ht : x.exchange.Turn x.now said e) : (x.afterTurn said e).Handed where
  picked := by
    rw [contexts_afterTurn]
    exact h.picked.trans (List.prefix_append _ _)
  waiting hg := by
    have hs := ht.speaks
    have hwaits : e.stream.requests.waiting = x.exchange.stream.requests.waiting ++ said := by
      rw [Channel.waiting, hs.queue, List.filterMap_append, List.filterMap_map]
      exact congrArg _ List.filterMap_some
    rw [contexts_afterTurn, ← h.waiting (hs.refused.symm.trans hg), List.append_assoc, ← hwaits]
    rfl

theorem handed_hearing {heard : List Reply} {e : Exchange} (h : x.Handed)
    (hh : x.exchange.Hearing x.now heard e) : (x.afterHearing heard e).Handed where
  picked := h.picked
  waiting hg := by
    have hr : e.stream.requests = x.exchange.stream.requests := hh.minds.requests
    have hw := h.waiting (by rw [← hr]; exact hg)
    rw [← hr] at hw
    exact hw

/-! ## What the receiver hears -/

/-- The receiver has heard the first of the replies brought, the others wait for
it as long as it is not over, and the buffer holds the batches heard. -/
structure Attentive (x : Setting) : Prop where
  heard : x.replies <+: x.brought
  waiting : (∀ ending, x.exchange.receiver ≠ .over ending) →
    x.replies ++ x.exchange.stream.replies.queue = x.brought
  present : (∀ ending, x.exchange.receiver ≠ .over ending) →
    x.exchange.stream.replies.receiverGone = false
  stored : x.exchange.buffer = .ofList (x.replies.filterMap Reply.batch?)

theorem attentive_take (h : x.Attentive) (c : Cue) : (x.take c).Attentive := by
  cases c with
  | cancel | refuse | close => exact ⟨h.heard, h.waiting, h.present, h.stored⟩
  | pick =>
    unfold take
    dsimp only
    split
    · exact ⟨h.heard, h.waiting, h.present, h.stored⟩
    · exact h
  | bring r =>
    unfold take
    dsimp only
    split
    · exact h
    · refine ⟨h.heard.trans (List.prefix_append _ _), fun hn => ?_, h.present, h.stored⟩
      show x.replies ++ (x.exchange.stream.replies.queue ++ [r]) = x.brought ++ [r]
      rw [← List.append_assoc, h.waiting hn]

theorem attentive_turn {said : List Context} {e : Exchange} (h : x.Attentive)
    (hspoken : Spoken x.exchange x.contexts)
    (ht : x.exchange.Turn x.now said e) : (x.afterTurn said e).Attentive := by
  have hs := ht.speaks
  -- a receiver that is over stays so; one that is not may only begin to read
  have hover : (∀ ending, e.receiver ≠ .over ending) →
      ∀ ending, x.exchange.receiver ≠ .over ending := by
    intro hn ending hr
    rcases hspoken.receiver_turn ht with hsame | ⟨habsent, -⟩
    · exact hn ending (hsame.trans hr)
    · cases habsent.symm.trans hr
  refine ⟨h.heard, fun hn => ?_, fun hn => ?_, ?_⟩
  · show x.replies ++ e.stream.replies.queue = x.brought
    rw [hs.replies]
    exact h.waiting (hover hn)
  · show e.stream.replies.receiverGone = false
    rw [hs.replies]
    exact h.present (hover hn)
  · show e.buffer = _
    rw [hs.buffer]
    exact h.stored

theorem attentive_hearing {heard : List Reply} {e : Exchange} (h : x.Attentive)
    (hh : x.exchange.Hearing x.now heard e) : (x.afterHearing heard e).Attentive := by
  obtain ⟨hr, hheard, hrest⟩ := hh.receiver
  have hreading : ∀ ending, x.exchange.receiver ≠ .over ending := by simp [hr]
  have hqueue := h.waiting hreading
  refine ⟨?_, fun hn => ?_, fun hn => ?_, ?_⟩
  · rw [replies_afterHearing]
    show _ <+: x.brought
    rw [← hqueue]
    exact (List.prefix_append_right_inj _).mpr hheard
  · rcases hrest with ⟨-, -, hq⟩ | ⟨ending, hover⟩
    · rw [replies_afterHearing]
      show _ ++ e.stream.replies.queue = x.brought
      rw [← hqueue, hq, List.append_assoc]
    · exact absurd hover (hn ending)
  · rcases hrest with ⟨-, hgone, -⟩ | ⟨ending, hover⟩
    · exact hgone.trans (h.present hreading)
    · exact absurd hover (hn ending)
  · rw [replies_afterHearing, List.filterMap_append]
    show e.buffer = _
    rw [hh.buffer, h.stored, RevisionBuffer.ofList, ← List.foldl_append]
    rfl

/-! ## What comes of it -/

/-- An exchange that is over has stopped its receiver and selected from its buffer. -/
def Concluded (e : Exchange) : Prop :=
  ∀ o, e.stage = .over o → (∃ ending, e.receiver = .over ending) ∧
    o.selected = e.buffer.latest? ∧ o.revisions = e.buffer.revisions

theorem stage_of_outcome {e : Exchange} {o : Outcome} (h : e.outcome? = some o) :
    e.stage = .over o := by
  unfold outcome? at h
  split at h
  · rename_i o' ho
    rw [ho, Option.some.inj h]
  · cases h

theorem concluded_turn {e e' : Exchange} {said : List Context} {now : Instant}
    (ht : e.Turn now said e') : Concluded e' := by
  intro o ho
  cases ht with
  | concludes hs hr =>
    -- the one turn that ends an exchange, and it waits for the receiver
    obtain rfl := Stage.over.inj ho
    exact ⟨⟨_, hr⟩, rfl, rfl⟩
  | sendsSecond _ _ =>
    obtain ⟨stage, source, drawn, journal, he, hstage⟩ :=
      (e.say e.request.secondContext).decide_spec now
    rw [he] at ho
    rcases hstage with rfl | ⟨deadline, rfl⟩
    · cases ho
    · cases ho
  | _ => cases ho

theorem concluded_hearing {e e' : Exchange} {heard : List Reply} {now : Instant}
    (h : Concluded e) (hh : e.Hearing now heard e') : Concluded e' := by
  intro o ho
  -- the receiver of a concluded exchange is over, so it hears nothing
  obtain ⟨⟨ending, hover⟩, -⟩ := h o (hh.minds.stage.symm.trans ho)
  exact absurd hover (by simp [hh.receiver.1])

/-! ## Along a run -/

theorem run_append (moves later : List Move) : x.run (moves ++ later) = (x.run moves).run later :=
  List.foldl_append

/-- The request of an exchange is the same throughout. -/
theorem run_request (moves : List Move) :
    (x.run moves).exchange.request = x.exchange.request := by
  refine run_induction (P := fun y => y.exchange.request = x.exchange.request)
    ?_ ?_ ?_ ?_ rfl moves
  · intro y c hy
    obtain ⟨_, _, _, _, he⟩ := y.take_eq c
    rw [he]
    exact hy
  · intro y d hy
    exact hy
  · intro y said e ht hy
    exact ht.speaks.request.trans hy
  · intro y heard e hh hy
    exact hh.minds.request.trans hy

/-- All that a setting keeps. -/
structure Orderly (x : Setting) : Prop where
  spoken : Spoken x.exchange x.contexts
  handed : x.Handed
  attentive : x.Attentive
  concluded : Concluded x.exchange

theorem orderly_ofStart (request : Request) (params : Params) (source : Random.Source)
    (start : Instant) (requestCapacity replyCapacity : Nat) :
    (ofStart request params source start requestCapacity replyCapacity).Orderly where
  spoken := ⟨rfl, rfl⟩
  handed := ⟨List.prefix_refl _, fun _ => rfl⟩
  attentive := ⟨List.prefix_refl _, fun _ => rfl, fun _ => rfl, rfl⟩
  concluded := nofun

theorem orderly_take (h : x.Orderly) (c : Cue) : (x.take c).Orderly where
  spoken := by
    obtain ⟨_, _, _, _, he⟩ := x.take_eq c
    rw [he]
    exact h.spoken
  handed := handed_take h.handed c
  attentive := attentive_take h.attentive c
  concluded := by
    obtain ⟨_, _, _, _, he⟩ := x.take_eq c
    rw [he]
    exact h.concluded

theorem orderly_run (h : x.Orderly) (moves : List Move) : (x.run moves).Orderly := by
  refine run_induction (P := Orderly) ?_ ?_ ?_ ?_ h moves
  · intro y c hy
    exact orderly_take hy c
  · intro y d hy
    exact ⟨hy.spoken, ⟨hy.handed.picked, hy.handed.waiting⟩,
      ⟨hy.attentive.heard, hy.attentive.waiting, hy.attentive.present, hy.attentive.stored⟩,
      hy.concluded⟩
  · intro y said e ht hy
    refine ⟨?_, handed_turn hy.handed ht, attentive_turn hy.attentive hy.spoken ht,
      concluded_turn ht⟩
    rw [contexts_afterTurn]
    exact spoken_turn hy.spoken ht
  · intro y heard e hh hy
    exact ⟨spoken_hearing hy.spoken hh, handed_hearing hy.handed hh,
      attentive_hearing hy.attentive hh, concluded_hearing hy.concluded hh⟩

end Setting
end Exchange
end ProgressiveSearch
