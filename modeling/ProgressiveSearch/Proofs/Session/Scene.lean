import ProgressiveSearch.Proofs.Session.Transition
import ProgressiveSearch.Proofs.Stream

/-! # A session in its surroundings

A session moves only when it is given a step; everything else that can happen
to it comes from outside.  A `Scene` is a session together with what surrounds
it: the clock, whether the service is stopping, and the two far ends of its
stream.  What comes from outside is a `Cue` — the service stops, something
arrives on the requests, the client half-closes, the reader of the replies takes
one or goes away — and a `Move` is a cue, a stretch of time, or a step of the
session.

A run is a list of moves, in any order whatsoever (`Scene.run`).  Nothing forces
the session to take a step when it could, or time to stand still until it has:
every schedule is a run, and every moment of a run is the end of a shorter run.
A move that is not possible changes nothing.

A scene also keeps a `History` of what the session has done, with the moment of
each deed, which no move looks at: the contexts read, the questions to the
ranker, the replies queued.  `taken` are the replies that have left the channel
at its other end.  With what is still queued they are what was queued
(`Conserved`).
-/
namespace ProgressiveSearch.Session

/-- What happens around a session. -/
inductive Cue where
  /-- The service stops. -/
  | stop
  /-- Something arrives on the requests. -/
  | send (a : Arrival)
  /-- The client lets go of the requests. -/
  | halfClose
  /-- The reader takes the oldest reply. -/
  | read
  /-- The reader goes away. -/
  | leave
  deriving DecidableEq

/-- What happens next. -/
inductive Move where
  | cue (c : Cue)
  | pass (d : Duration)
  | step
  deriving DecidableEq

/-- What a session has done so far, the oldest deed first, and when. -/
structure History where
  /-- The contexts read. -/
  reads : List (Instant × Context)
  /-- What the ranker was asked. -/
  asks : List (Instant × Context × UInt32)
  /-- The replies put on their channel. -/
  puts : List (Instant × Reply)

namespace History

variable (h : History)

/-- Nothing yet. -/
def none : History := ⟨[], [], []⟩

/-- The contexts read. -/
def contexts : List Context := h.reads.map Prod.snd

/-- What the ranker was asked. -/
def queries : List (Context × UInt32) := h.asks.map Prod.snd

/-- **The values that the session has put on the channel of replies.** -/
def written : List Reply := h.puts.map Prod.snd

/-- And then these deeds. -/
def add (now : Instant) (e : Deeds) : History where
  reads := h.reads ++ e.reads.map (now, ·)
  asks := h.asks ++ e.asks.map (now, ·)
  puts := h.puts ++ e.puts.map (now, ·)

variable {h} {now : Instant} {e : Deeds}

@[simp] theorem add_none : h.add now .none = h := by
  simp [add, Deeds.none]

theorem contexts_add : (h.add now e).contexts = h.contexts ++ e.reads := by
  simp [contexts, add, Function.comp_def]

theorem queries_add : (h.add now e).queries = h.queries ++ e.asks := by
  simp [queries, add, Function.comp_def]

theorem written_add : (h.add now e).written = h.written ++ e.puts := by
  simp [written, add, Function.comp_def]

end History

/-- A session, its surroundings, and what it has done. -/
structure Scene where
  now : Instant
  /-- The service is stopping. -/
  stopping : Bool
  session : Session
  history : History
  /-- The replies that the reader has taken or has left behind. -/
  taken : List Reply

namespace Scene

/-- A session that is about to begin, over channels of these capacities. -/
def ofStart (config : Config) (ranker : Ranker) (id : Nat) (start : Instant)
    (requestCapacity replyCapacity : Nat) : Scene where
  now := start
  stopping := false
  session := .enter config ranker (.begin id start) (.ofCapacities requestCapacity replyCapacity)
  history := .none
  taken := []

variable (x : Scene)

/-- Replaces what is known of the stream. -/
def withStream (stream : Stream) : Scene :=
  { x with session := { x.session with stream } }

/-- What a cue does. -/
def take : Cue → Scene
  | .stop => { x with stopping := true }
  | .send a =>
    let stream := x.session.stream
    if stream.requests.senderGone || stream.requests.receiverGone then x
    else x.withStream { stream with requests := stream.requests.put a }
  | .halfClose =>
    let stream := x.session.stream
    x.withStream { stream with requests := stream.requests.dropSender }
  | .read =>
    let stream := x.session.stream
    match stream.replies.queue with
    | [] => x
    | r :: rest =>
      { x.withStream { stream with replies := { stream.replies with queue := rest } } with
        taken := x.taken ++ [r] }
  | .leave =>
    let stream := x.session.stream
    { x.withStream { stream with replies := stream.replies.dropReceiver } with
      taken := x.taken ++ stream.replies.queue }

/-- The session has moved on to `s`, doing `e` on the way. -/
def after (e : Deeds) (s : Session) : Scene :=
  { x with session := s, history := x.history.add x.now e }

/-- What a move does. -/
def act : Move → Scene
  | .cue c => x.take c
  | .pass d => { x with now := x.now.plus d }
  | .step =>
    match x.session.step x.now x.stopping with
    | none => x
    | some s => x.after (deeds x.session s) s

/-- **A run**: the scene after a list of moves. -/
def run (moves : List Move) : Scene := moves.foldl act x

@[simp] theorem run_nil : x.run [] = x := rfl

theorem run_cons (m : Move) (moves : List Move) : x.run (m :: moves) = (x.act m).run moves := rfl

theorem run_append (moves later : List Move) : x.run (moves ++ later) = (x.run moves).run later :=
  List.foldl_append

/-! ## What moves leave alone -/

variable {x}

/-- A cue is seen by the session only through its stream and the service's word. -/
theorem take_eq (c : Cue) : ∃ stopping stream taken,
    x.take c = { x with
      stopping := stopping
      session := { x.session with stream := stream }
      taken := taken } := by
  cases c with
  | stop => exact ⟨true, x.session.stream, x.taken, rfl⟩
  | send a =>
    unfold take
    dsimp only
    split
    · exact ⟨_, _, _, rfl⟩
    · exact ⟨_, _, _, rfl⟩
  | halfClose => exact ⟨_, _, _, rfl⟩
  | read =>
    unfold take
    dsimp only
    split
    · exact ⟨_, _, _, rfl⟩
    · exact ⟨_, _, _, rfl⟩
  | leave => exact ⟨_, _, _, rfl⟩

/-- Only the service stops itself. -/
theorem stopping_take {c : Cue} (h : c ≠ .stop) : (x.take c).stopping = x.stopping := by
  cases c with
  | stop => exact absurd rfl h
  | send a | read =>
    unfold take
    dsimp only
    split
    · rfl
    · rfl
  | halfClose | leave => rfl

/-- A cue other than the reader's leave keeps the reader in place. -/
theorem receiverGone_take {c : Cue} (h : c ≠ .leave) :
    (x.take c).session.stream.replies.receiverGone = x.session.stream.replies.receiverGone := by
  cases c with
  | leave => exact absurd rfl h
  | send a | read =>
    unfold take
    dsimp only
    split
    · rfl
    · rfl
  | halfClose | stop => rfl

/-- Nothing is sent after a half-close. -/
theorem take_send_closed {a : Arrival} (h : x.session.stream.requests.senderGone = true) :
    x.take (.send a) = x := by
  simp [take, h]

/-- What is sent to requests in use waits there. -/
theorem requests_take_send {a : Arrival} (hs : x.session.stream.requests.senderGone = false)
    (hr : x.session.stream.requests.receiverGone = false) :
    (x.take (.send a)).session.stream.requests = x.session.stream.requests.put a := by
  simp [take, hs, hr, withStream]

/-- What is read is what has waited longest. -/
theorem take_read {r : Reply} {rest : List Reply}
    (hq : x.session.stream.replies.queue = r :: rest) :
    x.take .read = { x.withStream { x.session.stream with
      replies := { x.session.stream.replies with queue := rest } } with
      taken := x.taken ++ [r] } := by
  simp [take, hq]

/-- A move of the session's own is a transition, or nothing at all. -/
theorem act_step : x.act .step = x ∨
    ∃ e s, x.session.Transition x.now x.stopping e s ∧ x.act .step = x.after e s := by
  cases hs : x.session.step x.now x.stopping with
  | none => exact Or.inl (by simp only [act, hs])
  | some s =>
    obtain ⟨e, he⟩ := transition_of_step hs
    exact Or.inr ⟨e, s, he, by simp only [act, hs, he.deeds_eq]⟩

/-- Only the reader takes replies. -/
theorem taken_send (a : Arrival) : (x.take (.send a)).taken = x.taken := by
  unfold take
  dsimp only
  split
  · rfl
  · rfl

theorem taken_step : (x.act .step).taken = x.taken := by
  rcases x.act_step with he | ⟨e, s, -, he⟩
  · rw [he]
  · rw [he]
    rfl

/-- What cues, time and transitions keep is kept by every run. -/
theorem run_induction {P : Scene → Prop} (hcue : ∀ x c, P x → P (x.take c))
    (hpass : ∀ (x : Scene) d, P x → P { x with now := x.now.plus d })
    (hstep : ∀ (x : Scene) e s, x.session.Transition x.now x.stopping e s → P x → P (x.after e s))
    (h : P x) (moves : List Move) : P (x.run moves) := by
  induction moves generalizing x with
  | nil => exact h
  | cons m moves ih =>
    rw [run_cons]
    refine ih ?_
    cases m with
    | cue c => exact hcue x c h
    | pass d => exact hpass x d h
    | step =>
      rcases x.act_step with he | ⟨e, s, ht, he⟩
      · rw [he]; exact h
      · rw [he]; exact hstep x e s ht h

/-- The session keeps its configuration and its ranker throughout a run. -/
theorem run_config_ranker (moves : List Move) :
    (x.run moves).session.config = x.session.config ∧
      (x.run moves).session.ranker = x.session.ranker := by
  refine run_induction (P := fun y => y.session.config = x.session.config ∧
    y.session.ranker = x.session.ranker) ?_ ?_ ?_ ⟨rfl, rfl⟩ moves
  · intro y c h
    obtain ⟨_, _, _, he⟩ := y.take_eq c
    rw [he]
    exact h
  · intro y d h
    exact h
  · intro y e s ht h
    obtain ⟨hc, hk⟩ := ht.config_ranker
    exact ⟨hc.trans h.1, hk.trans h.2⟩

/-- Replies keep their capacity throughout a run, and as long as the reader does
not go away, their reader. -/
theorem run_replies (moves : List Move) :
    (x.run moves).session.stream.replies.capacity = x.session.stream.replies.capacity ∧
      (.cue .leave ∉ moves → (x.run moves).session.stream.replies.receiverGone =
        x.session.stream.replies.receiverGone) := by
  induction moves generalizing x with
  | nil => exact ⟨rfl, fun _ => rfl⟩
  | cons m moves ih =>
    obtain ⟨hcap, hgone⟩ : (x.act m).session.stream.replies.capacity =
        x.session.stream.replies.capacity ∧ (m ≠ .cue .leave →
          (x.act m).session.stream.replies.receiverGone =
            x.session.stream.replies.receiverGone) := by
      cases m with
      | cue c =>
        refine ⟨?_, fun hm => receiverGone_take fun hc => hm (congrArg Move.cue hc)⟩
        cases c with
        | leave | stop | halfClose => rfl
        | send a | read =>
          simp only [act, take]
          split
          · rfl
          · rfl
      | pass d => exact ⟨rfl, fun _ => rfl⟩
      | step =>
        rcases x.act_step with he | ⟨e, s, ht, he⟩
        · rw [he]
          exact ⟨rfl, fun _ => rfl⟩
        · rw [he]
          have hs := ht.replies
          exact ⟨by rw [after, hs], fun _ => by rw [after, hs]⟩
    rw [run_cons]
    refine ⟨(ih (x := x.act m)).1.trans hcap, fun hn => ?_⟩
    rw [List.mem_cons, not_or] at hn
    exact ((ih (x := x.act m)).2 hn.2).trans (hgone (Ne.symm hn.1))

/-- A session that is over stays so, and does nothing more. -/
theorem run_over {r : Result} (h : x.session.activity = .over r) (moves : List Move) :
    (x.run moves).session.activity = .over r ∧ (x.run moves).history = x.history := by
  refine run_induction (P := fun y => y.session.activity = .over r ∧ y.history = x.history)
    ?_ ?_ ?_ ⟨h, rfl⟩ moves
  · intro y c hy
    obtain ⟨_, _, _, he⟩ := y.take_eq c
    rw [he]
    exact hy
  · intro y d hy
    exact hy
  · intro y e s ht hy
    exact absurd hy.1 (ht.not_over r)

/-! ## Nothing is lost on the way -/

/-- What has left the channel and what is still in it are together what was put
there, in order. -/
def Conserved (x : Scene) : Prop :=
  x.taken ++ x.session.stream.replies.queue = x.history.written

theorem conserved_take (h : x.Conserved) (c : Cue) : (x.take c).Conserved := by
  unfold Conserved at h ⊢
  cases c with
  | stop => exact h
  | send a =>
    unfold take
    dsimp only
    split
    · exact h
    · exact h
  | halfClose => exact h
  | read =>
    unfold take
    dsimp only
    split
    · exact h
    · rename_i r rest hq
      rw [hq] at h
      simpa [withStream] using h
  | leave => simpa [take, withStream, Channel.dropReceiver] using h

theorem conserved_after (h : x.Conserved) {e : Deeds} {s : Session}
    (ht : x.session.Transition x.now x.stopping e s) : (x.after e s).Conserved := by
  unfold Conserved at h ⊢
  have hq : s.stream.replies.queue = x.session.stream.replies.queue ++ e.puts := by
    rw [ht.replies]
  show x.taken ++ s.stream.replies.queue = (x.history.add x.now e).written
  rw [hq, ← List.append_assoc, h, History.written_add]

theorem conserved_run (h : x.Conserved) (moves : List Move) : (x.run moves).Conserved :=
  run_induction (P := Conserved) (fun _ c h => conserved_take h c) (fun _ _ h => h)
    (fun _ _ _ ht h => conserved_after h ht) h moves

theorem conserved_ofStart (config : Config) (ranker : Ranker) (id : Nat) (start : Instant)
    (requestCapacity replyCapacity : Nat) :
    (ofStart config ranker id start requestCapacity replyCapacity).Conserved := rfl

/-! ## What is read was sent -/

/-- The context that a move sends. -/
def sends : Move → List Context
  | .cue (.send a) => a.context?.toList
  | _ => []

/-- Of the contexts sent the session has read the first; those that wait come
next, and unless the client has half-closed there are no others. -/
structure Fed (x : Scene) (sent : List Context) : Prop where
  read : x.history.contexts <+: sent
  waiting : x.session.stream.requests.receiverGone = false →
    x.history.contexts ++ x.session.stream.requests.waiting <+: sent
  all : x.session.stream.requests.receiverGone = false →
    x.session.stream.requests.senderGone = false →
    x.history.contexts ++ x.session.stream.requests.waiting = sent
  /-- Until it is over the session holds on to the requests. -/
  held : (∀ r, x.session.activity ≠ .over r) → x.session.stream.requests.receiverGone = false

theorem Fed.append {sent : List Context} (h : x.Fed sent) (more : List Context)
    (hn : more = [] ∨ x.session.stream.requests.receiverGone = true ∨
      x.session.stream.requests.senderGone = true) : x.Fed (sent ++ more) where
  read := h.read.trans (List.prefix_append _ _)
  waiting hr := (h.waiting hr).trans (List.prefix_append _ _)
  all hr hs := by
    rcases hn with rfl | hg | hg
    · rw [List.append_nil]
      exact h.all hr hs
    · simp [hr] at hg
    · simp [hs] at hg
  held := h.held

theorem fed_take {sent : List Context} (h : x.Fed sent) (c : Cue) :
    (x.take c).Fed (sent ++ sends (.cue c)) := by
  cases c with
  | send a =>
    unfold take
    dsimp only
    split
    · -- nothing can be sent any more, which is all that is lost
      rename_i hgone
      exact h.append _ (.inr (Or.comm.mp (by simpa using hgone)))
    · rename_i hgone
      obtain ⟨hs, hr⟩ : x.session.stream.requests.senderGone = false ∧
        x.session.stream.requests.receiverGone = false := by simpa using hgone
      have hall : x.history.contexts ++ (x.session.stream.requests.put a).waiting =
          sent ++ sends (.cue (.send a)) := by
        rw [Channel.waiting_put, ← List.append_assoc, h.all hr hs]
        rfl
      exact ⟨h.read.trans (List.prefix_append _ _), fun _ => hall ▸ List.prefix_refl _,
        fun _ _ => hall, h.held⟩
  | halfClose =>
    have h' := h.append [] (.inl rfl)
    exact ⟨h'.read, h'.waiting, nofun, h'.held⟩
  | stop | leave =>
    have h' := h.append [] (.inl rfl)
    exact ⟨h'.read, h'.waiting, h'.all, h'.held⟩
  | read =>
    have h' := h.append [] (.inl rfl)
    unfold take
    dsimp only
    split
    · exact h'
    · exact ⟨h'.read, h'.waiting, h'.all, h'.held⟩

theorem fed_after {sent : List Context} (h : x.Fed sent) {e : Deeds} {s : Session}
    (ht : x.session.Transition x.now x.stopping e s) : (x.after e s).Fed sent := by
  have hg := h.held ht.not_over
  obtain ⟨queue, hq, hs⟩ := ht.requests
  have hwaits : x.session.stream.requests.waiting =
      e.reads ++ { x.session.stream.requests with queue }.waiting :=
    Channel.waiting_of_queue hq
  have hread : (x.after e s).history.contexts = x.history.contexts ++ e.reads :=
    History.contexts_add
  have hwaiting := h.waiting hg
  rw [hwaits, ← List.append_assoc, ← hread] at hwaiting
  rcases hs with hs | ⟨⟨r, hr⟩, hgone⟩
  -- the session goes on with what is left of the requests, or leaves them for good
  · have hs' : (x.after e s).session.stream.requests =
        { x.session.stream.requests with queue } := hs
    refine ⟨(List.prefix_append _ _).trans hwaiting, fun _ => hs' ▸ hwaiting, fun _ hc => ?_,
      fun _ => ?_⟩
    · have hall := h.all hg (by simpa [hs'] using hc)
      rwa [hwaits, ← List.append_assoc, ← hread, ← hs'] at hall
    · rw [hs']
      exact hg
  · refine ⟨(List.prefix_append _ _).trans hwaiting, fun hn => ?_, fun hn => ?_, fun hn => ?_⟩
    · cases hgone.symm.trans hn
    · cases hgone.symm.trans hn
    · exact absurd hr (hn r)

theorem fed_act {sent : List Context} (h : x.Fed sent) (m : Move) :
    (x.act m).Fed (sent ++ sends m) := by
  cases m with
  | cue c => exact fed_take h c
  | pass d =>
    have h' := h.append [] (.inl rfl)
    exact ⟨h'.read, h'.waiting, h'.all, h'.held⟩
  | step =>
    rw [show sent ++ sends .step = sent from List.append_nil sent]
    rcases x.act_step with he | ⟨e, s, ht, he⟩
    · rw [he]
      exact h
    · rw [he]
      exact fed_after h ht

/-- A move that sends nothing. -/
theorem fed_silent {sent : List Context} (h : x.Fed sent) {m : Move} (hm : sends m = []) :
    (x.act m).Fed sent := by
  have hact := fed_act h m
  rwa [hm, List.append_nil] at hact

/-- **What a session reads is what is sent to it**, in that order. -/
theorem fed_run {sent : List Context} (h : x.Fed sent) (moves : List Move) :
    (x.run moves).Fed (sent ++ moves.flatMap sends) := by
  induction moves generalizing x sent with
  | nil => exact h.append [] (.inl rfl)
  | cons m moves ih =>
    rw [List.flatMap_cons, ← List.append_assoc]
    exact ih (fed_act h m)

/-- Nothing has been sent at the start. -/
theorem fed_ofStart (config : Config) (ranker : Ranker) (id : Nat) (start : Instant)
    (requestCapacity replyCapacity : Nat) :
    (ofStart config ranker id start requestCapacity replyCapacity).Fed [] :=
  ⟨List.prefix_refl _, fun _ => List.prefix_refl _, fun _ _ => rfl, fun _ => rfl⟩

/-! ## The history is true -/

/-- Until it is over the session has counted the contexts that it has read, as far as its counter
can tell. -/
def Counted (x : Scene) : Prop :=
  (∀ r, x.session.activity ≠ .over r) →
    x.session.tally.requestsSeen = x.history.contexts.length % Word.size32

theorem counted_after (h : x.Counted) {e : Deeds} {s : Session}
    (ht : x.session.Transition x.now x.stopping e s) : (x.after e s).Counted := by
  intro ho
  have hn := h ht.not_over
  show s.tally.requestsSeen = (x.history.add x.now e).contexts.length % Word.size32
  rw [History.contexts_add, List.length_append]
  cases ht with
  | ends _ hl => exact absurd hl.activity (ho _)
  -- the two transitions that read also count
  | answers _ _ _ | ignores _ _ _ _ =>
    exact (congrArg Word.next32 hn).trans (Word.next32_mod _)
  | _ => exact hn

theorem counted_run (h : x.Counted) (moves : List Move) : (x.run moves).Counted := by
  refine run_induction (P := Counted) ?_ ?_ ?_ h moves
  · intro y c hy
    obtain ⟨_, _, _, he⟩ := y.take_eq c
    rw [he]
    exact hy
  · intro y d hy
    exact hy
  · intro y e s ht hy
    exact counted_after hy ht

/-- The revisions in the session's journal are those of its history. -/
theorem ranked_run (h : x.session.ranked = x.history.queries.map Prod.snd) (moves : List Move) :
    (x.run moves).session.ranked = (x.run moves).history.queries.map Prod.snd := by
  refine run_induction (P := fun y => y.session.ranked = y.history.queries.map Prod.snd)
    ?_ ?_ ?_ h moves
  · intro y c hy
    obtain ⟨_, _, _, he⟩ := y.take_eq c
    rw [he]
    exact hy
  · intro y d hy
    exact hy
  · intro y e s ht hy
    show s.ranked = (y.history.add y.now e).queries.map Prod.snd
    rw [ht.ranked_eq, hy, History.queries_add, List.map_append]

/-! ## The history only grows -/

theorem written_prefix_act (m : Move) : x.history.written <+: (x.act m).history.written := by
  cases m with
  | cue c =>
    obtain ⟨_, _, _, he⟩ := x.take_eq c
    have hsame : (x.take c).history.written = x.history.written := by rw [he]
    exact hsame ▸ List.prefix_refl _
  | pass d => exact List.prefix_refl _
  | step =>
    rcases x.act_step with he | ⟨e, s, -, he⟩
    · exact he.symm ▸ List.prefix_refl _
    · rw [he]
      show x.history.written <+: (x.history.add x.now e).written
      rw [History.written_add]
      exact List.prefix_append _ _

/-- What has been put on the channel stays there: a longer run only adds to it. -/
theorem written_prefix_run (moves : List Move) :
    x.history.written <+: (x.run moves).history.written := by
  induction moves generalizing x with
  | nil => exact List.prefix_refl _
  | cons m moves ih => exact (written_prefix_act m).trans ih

end Scene

end ProgressiveSearch.Session
