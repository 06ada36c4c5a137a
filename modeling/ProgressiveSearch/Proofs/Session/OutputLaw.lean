import ProgressiveSearch.Proofs.Session.Scene

/-! # The output law of a session

Whatever happens around a session, and in whatever order, it puts on its channel
of replies a prefix of three batches — revision 1 of the first context, revisions
2 and 3 of the second — and after that at most one status, which is the last
value and never follows revision 3 (`OutputLaw`, `output_law`).

The invariant behind it (`Told`) says, for each thing that a session can be
doing, exactly what it has read, asked and queued so far: a session's phase and
activity *are* its past, but for the contexts in excess of two.  The third batch
is asked for only when the deadline of the phase has come, and the invariant ties
that deadline to the moment at which the second context was read.
-/
namespace ProgressiveSearch.Session

/-- What a session asks of its ranker, in this order, about the contexts that it
has read. -/
def plan : List Context → List (Context × UInt32)
  | [] => []
  | [c] => [(c, 1)]
  | c :: c' :: _ => [(c, 1), (c', 2), (c', 3)]

/-- The answers to the plan. -/
def answers (ranker : Ranker) (contexts : List Context) : List Batch :=
  (plan contexts).map fun q => ranker q.1 q.2

/-- Batches, then perhaps a status. -/
def Shaped (batches : List Batch) (status : Option Status) (replies : List Reply) : Prop :=
  replies = batches.map .batch ++ status.toList.map .failed

/-- The ranker is asked what the first two contexts call for, and revision 3 in
due time. -/
structure Asking (finalDelay : Duration) (h : History) : Prop where
  /-- The questions are those of the plan, in order, and there are no others. -/
  asked : h.queries <+: plan h.contexts
  /-- Revision 3 is asked for no earlier than the final delay after the second
  context was read. -/
  timely : ∀ t c, (t, c, 3) ∈ h.asks → ∃ first second rest,
    h.reads = first :: (second, c) :: rest ∧ second.plus finalDelay ≤ t

/-- **The output law.** -/
structure OutputLaw (ranker : Ranker) (finalDelay : Duration) (h : History) : Prop
    extends Asking finalDelay h where
  /-- The ranker's answers are queued in order; a status comes last and not after
  all three. -/
  written : ∃ batches status, Shaped batches status h.written ∧
    batches <+: answers ranker h.contexts ∧ (status.isSome → batches.length < 3)

/-- The session has read, asked and queued just this. -/
structure History.Is (h : History) (reads : List (Instant × Context))
    (asks : List (Context × UInt32)) (batches : List Batch) : Prop where
  reads : h.reads = reads
  asks : h.queries = asks
  written : h.written = batches.map .batch

/-- **What a session has done, told from what it is doing.** -/
def Told (s : Session) (h : History) : Prop :=
  match s.phase, s.activity with
  | .awaitingFirst, .entering | .awaitingFirst, .selecting => h.Is [] [] []
  | .awaitingFirst, .delivering d =>
    h.Is [(d.receivedAt, d.context)] [(d.context, 1)] [] ∧ d.batch = s.ranker d.context 1
  | .awaitingSecond, .selecting => ∃ t c, h.Is [(t, c)] [(c, 1)] [s.ranker c 1]
  | .awaitingSecond, .delivering d =>
    (∃ t c, h.Is [(t, c), (d.receivedAt, d.context)] [(c, 1), (d.context, 2)] [s.ranker c 1]) ∧
      d.batch = s.ranker d.context 2
  | .awaitingFinal deadline, .selecting => ∃ t c t' c' rest,
    h.Is ((t, c) :: (t', c') :: rest) [(c, 1), (c', 2)] [s.ranker c 1, s.ranker c' 2] ∧
      s.lastContext = some c' ∧ deadline = t'.plus s.config.finalDelay
  | .awaitingFinal _, .delivering d =>
    (∃ t c t' rest, h.Is ((t, c) :: (t', d.context) :: rest)
      [(c, 1), (d.context, 2), (d.context, 3)] [s.ranker c 1, s.ranker d.context 2] ∧
        ∀ t₃ c₃, (t₃, c₃, 3) ∈ h.asks → t'.plus s.config.finalDelay ≤ t₃) ∧
      d.batch = s.ranker d.context 3
  | .closed, .over r => OutputLaw s.ranker s.config.finalDelay h ∧
    ∀ reason, r = .failed (.protocolViolation reason) → 3 ≤ h.contexts.length
  | _, _ => False

/-! ## What the invariant says at a glance -/

section Glance
variable {s : Session} {h : History} {reads : List (Instant × Context)}
  {asks : List (Context × UInt32)} {batches : List Batch} {finalDelay : Duration}

theorem History.Is.contexts (h' : h.Is reads asks batches) :
    h.contexts = reads.map Prod.snd := by
  rw [History.contexts, h'.reads]

/-- Nothing has to be in time as long as revision 3 is not asked for. -/
theorem History.Is.asking (h' : h.Is reads asks batches)
    (hp : asks <+: plan (reads.map Prod.snd)) (hn : ∀ c, (c, (3 : UInt32)) ∉ asks) :
    Asking finalDelay h where
  asked := by rw [h'.asks, h'.contexts]; exact hp
  timely t c hm := by
    refine absurd ?_ (hn c)
    rw [← h'.asks]
    exact List.mem_map.mpr ⟨_, hm, rfl⟩

theorem History.Is.add {now : Instant} {e : Deeds} (h' : h.Is reads asks batches)
    (more : List Batch) (he : e.puts = more.map .batch) :
    (h.add now e).Is (reads ++ e.reads.map (now, ·)) (asks ++ e.asks) (batches ++ more) where
  reads := by rw [History.add, h'.reads]
  asks := by rw [History.queries_add, h'.asks]
  written := by rw [History.written_add, h'.written, he, List.map_append]

theorem told_asking (ht : Told s h) : Asking s.config.finalDelay h := by
  unfold Told at ht
  split at ht
  · exact ht.asking (by simp [plan]) (by simp)
  · exact ht.asking (by simp [plan]) (by simp)
  · exact ht.1.asking (by simp [plan]) (by simp)
  · obtain ⟨t, c, ht⟩ := ht
    exact ht.asking (by simp [plan]) (by simp)
  · obtain ⟨⟨t, c, ht⟩, -⟩ := ht
    exact ht.asking (by simp [plan]) (by simp)
  · obtain ⟨t, c, t', c', rest, ht, -⟩ := ht
    exact ht.asking (by simp [plan]) (by simp)
  · rename_i d _ _
    obtain ⟨⟨t, c, t', rest, ht, htime⟩, -⟩ := ht
    refine ⟨?_, fun t₃ c₃ hm => ?_⟩
    · rw [ht.asks, ht.contexts]
      exact List.prefix_refl _
    · have hq : (c₃, (3 : UInt32)) ∈ h.queries := List.mem_map.mpr ⟨_, hm, rfl⟩
      obtain rfl : c₃ = d.context := by simpa [ht.asks] using hq
      exact ⟨_, _, _, ht.reads, htime _ _ hm⟩
  · exact ht.1.toAsking
  · exact ht.elim

/-- Until it is over a session has queued batches only, and not all three. -/
theorem told_written (ht : Told s h) (ho : ∀ r, s.activity ≠ .over r) :
    ∃ batches, h.written = batches.map .batch ∧ batches <+: answers s.ranker h.contexts ∧
      batches.length < 3 := by
  unfold Told at ht
  split at ht
  · exact ⟨[], ht.written, List.nil_prefix, by simp⟩
  · exact ⟨[], ht.written, List.nil_prefix, by simp⟩
  · exact ⟨[], ht.1.written, List.nil_prefix, by simp⟩
  · obtain ⟨t, c, ht⟩ := ht
    exact ⟨_, ht.written, by simp [ht.contexts, answers, plan], by simp⟩
  · obtain ⟨⟨t, c, ht⟩, -⟩ := ht
    exact ⟨_, ht.written, by simp [ht.contexts, answers, plan], by simp⟩
  · obtain ⟨t, c, t', c', rest, ht, -⟩ := ht
    exact ⟨_, ht.written, by simp [ht.contexts, answers, plan], by simp⟩
  · obtain ⟨⟨t, c, t', rest, ht, -⟩, -⟩ := ht
    exact ⟨_, ht.written, by simp [ht.contexts, answers, plan], by simp⟩
  · rename_i r _ ha
    exact absurd ha (ho r)
  · exact ht.elim

/-- The batch that a session is about to queue is the next answer. -/
theorem told_delivering {d : Delivery} (ht : Told s h) (hd : s.activity = .delivering d) :
    ∃ batches, h.written = batches.map .batch ∧
      batches ++ [d.batch] <+: answers s.ranker h.contexts := by
  unfold Told at ht
  rw [hd] at ht
  split at ht
  · rename_i ha
    cases ha
  · rename_i ha
    cases ha
  · rename_i ha
    cases ha
    exact ⟨[], ht.1.written, by simp [ht.1.contexts, answers, plan, ht.2]⟩
  · rename_i ha
    cases ha
  · rename_i ha
    cases ha
    obtain ⟨⟨t, c, ht⟩, hb⟩ := ht
    exact ⟨_, ht.written, by simp [ht.contexts, answers, plan, hb]⟩
  · rename_i ha
    cases ha
  · rename_i ha
    cases ha
    obtain ⟨⟨t, c, t', rest, ht, -⟩, hb⟩ := ht
    exact ⟨_, ht.written, by simp [ht.contexts, answers, plan, hb]⟩
  · rename_i ha
    cases ha
  · exact ht.elim

/-- A session that has not begun has done nothing. -/
theorem told_entering (ht : Told s h) (he : s.activity = .entering) :
    s.phase = .awaitingFirst ∧ h.Is [] [] [] := by
  unfold Told at ht
  rw [he] at ht
  cases hp : s.phase with
  | awaitingFirst => exact ⟨rfl, by simpa [hp] using ht⟩
  | _ => simp [hp] at ht

/-- A session at its select that awaits no context has read two. -/
theorem told_final (ht : Told s h) (hs : s.activity = .selecting)
    (hp : s.phase.awaitsContext = false) :
    ∃ t c t' c' rest, h.Is ((t, c) :: (t', c') :: rest) [(c, 1), (c', 2)]
      [s.ranker c 1, s.ranker c' 2] ∧ s.lastContext = some c' ∧
        s.phase = .awaitingFinal (t'.plus s.config.finalDelay) := by
  unfold Told at ht
  rw [hs] at ht
  cases hphase : s.phase with
  | awaitingFirst | awaitingSecond => simp [hphase, Phase.awaitsContext] at hp
  | awaitingFinal deadline =>
    simp only [hphase] at ht
    obtain ⟨t, c, t', c', rest, ht, hc, rfl⟩ := ht
    exact ⟨t, c, t', c', rest, ht, hc, rfl⟩
  | closed => simp [hphase] at ht

end Glance

/-! ## Ends -/

section Ends
variable {now : Instant} {stopping : Bool} {s s' : Session} {h : History} {e : Deeds} {r : Result}
  {finalDelay : Duration}

/-- More contexts never call a question back. -/
theorem plan_append (contexts more : List Context) : plan contexts <+: plan (contexts ++ more) := by
  match contexts, more with
  | [], _ => exact List.nil_prefix
  | [c], [] => exact List.prefix_refl _
  | [c], c' :: _ => exact ⟨[(c', 2), (c', 3)], rfl⟩
  | c :: c' :: _, _ => exact List.prefix_refl _

theorem answers_append (ranker : Ranker) (contexts more : List Context) :
    answers ranker contexts <+: answers ranker (contexts ++ more) :=
  (plan_append contexts more).map _

/-- To read on without asking is within the law. -/
theorem Asking.add (ha : Asking finalDelay h) (he : e.asks = []) :
    Asking finalDelay (h.add now e) where
  asked := by
    rw [History.queries_add, History.contexts_add, he, List.append_nil]
    exact ha.asked.trans (plan_append _ _)
  timely t c hm := by
    have hm' : (t, c, 3) ∈ h.asks := by simpa [History.add, he] using hm
    obtain ⟨first, second, rest, hreads, ht⟩ := ha.timely t c hm'
    exact ⟨first, second, rest ++ e.reads.map (now, ·), by simp [History.add, hreads], ht⟩

/-- A status is queued once or not at all. -/
theorem offered_eq (s : Session) (status : Status) :
    s.offered status = [] ∨ s.offered status = [.failed status] := by
  unfold offered
  split
  · exact .inl rfl
  · split
    · exact .inr rfl
    · exact .inl rfl

/-- The last thing that a session queues is a status, or the batch that it was
about to deliver, or nothing. -/
theorem Exit.puts (he : s.Exit now stopping e r) :
    (∃ status : Option Status, e.puts = status.toList.map .failed) ∨
      ∃ d, s.activity = .delivering d ∧ e.puts = [.batch d.batch] := by
  have hoffer : ∀ status, ∃ status' : Option Status,
      s.offered status = status'.toList.map .failed := by
    intro status
    rcases s.offered_eq status with ho | ho
    · exact ⟨.none, ho⟩
    · exact ⟨some status, ho⟩
  cases he with
  | stops _ _ | rejects _ _ _ _ | breaks _ _ => exact .inl (hoffer _)
  | unnameable hd _ => exact .inr ⟨_, hd.delivering, rfl⟩
  | completes hd _ => exact .inr ⟨_, hd.delivering, rfl⟩
  | _ => exact .inl ⟨.none, rfl⟩

theorem Exit.asks (he : s.Exit now stopping e r) : e.asks = [] := by
  cases he <;> rfl

/-- **However a session ends, it has kept the law**, and it ends in a violation
only over a third context. -/
theorem told_exit (ht : Told s h) (he : s.Exit now stopping e r) :
    OutputLaw s.ranker s.config.finalDelay (h.add now e) ∧
      ∀ reason, r = .failed (.protocolViolation reason) → 3 ≤ (h.add now e).contexts.length := by
  refine ⟨{ (told_asking ht).add he.asks with written := ?_ }, fun reason hr => ?_⟩
  · -- a status follows what was queued before; a batch that was due is one more answer
    rw [History.written_add, History.contexts_add]
    rcases he.puts with ⟨status, hp⟩ | ⟨d, hd, hp⟩
    · obtain ⟨batches, hw, hb, hlen⟩ := told_written ht he.not_over
      exact ⟨batches, status, by rw [Shaped, hw, hp], hb.trans (answers_append ..), fun _ => hlen⟩
    · obtain ⟨batches, hw, hb⟩ := told_delivering ht hd
      exact ⟨batches ++ [d.batch], .none, by rw [Shaped, hw, hp]; simp,
        hb.trans (answers_append ..), fun hs => by simp at hs⟩
  · subst hr
    cases he with
    | rejects hl _ hp _ =>
      -- two had been read, and the one that is rejected is the third
      obtain ⟨t, c, t', c', rest, hi, -⟩ := told_final ht hl.selecting hp
      rw [History.contexts_add, hi.contexts]
      simp

end Ends

/-! ## The invariant along a run -/

section Run
variable {s s' : Session} {h : History} {e : Deeds} {now : Instant} {stopping : Bool}

theorem told_step (ht : Told s h) (hs : s.Transition now stopping e s') :
    Told s' (h.add now e) := by
  cases hs with
  | begins he _ =>
    -- a session enters only while it awaits the first context
    unfold Told at ht ⊢
    rw [he] at ht
    cases hp : s.phase with
    | awaitingFirst => simpa [hp] using ht
    | _ => simp [hp] at ht
  | @answers c rest hl hq hp =>
    unfold Told at ht ⊢
    rw [hl.selecting] at ht
    cases hphase : s.phase with
    | awaitingFirst =>
      simp only [hphase, dueRevision] at ht ⊢
      exact ⟨ht.add [] rfl, rfl⟩
    | awaitingSecond =>
      simp only [hphase, dueRevision] at ht ⊢
      obtain ⟨t, c', hi⟩ := ht
      exact ⟨⟨t, c', hi.add [] rfl⟩, rfl⟩
    | awaitingFinal _ | closed => simp [hphase, Phase.awaitsContext] at hp
  | @defers c deadline ha hp hd hc =>
    -- the stored context is the second one, and the deadline was counted from its arrival
    obtain ⟨t, c₁, t', c₂, rest, hi, hlast, hphase⟩ :=
      told_final ht ha.selecting (by rw [hp]; rfl)
    obtain rfl : deadline = t'.plus s.config.finalDelay := by simpa [hp] using hphase
    obtain rfl : c = c₂ := by simpa [hc] using hlast
    unfold Told
    simp only [hp, dueRevision]
    refine ⟨⟨t, c₁, t', rest, ?_, ?_⟩, rfl⟩
    · have hi' : (h.add now ⟨[], [(c, 3)], []⟩).Is _ _ _ := hi.add [] rfl
      rwa [List.map_nil, List.append_nil] at hi'
    · -- no earlier question was for revision 3, so this is the only one
      intro t₃ c₃ hm
      have hnew : (t₃, c₃, (3 : UInt32)) ∉ h.asks := by
        intro hold
        have hq : (c₃, (3 : UInt32)) ∈ h.queries := List.mem_map.mpr ⟨_, hold, rfl⟩
        simp [hi.asks] at hq
      rcases List.mem_append.mp hm with hm | hm
      · exact absurd hm hnew
      · obtain ⟨rfl, -⟩ : t₃ = now ∧ c₃ = c := by simpa [Contract.finalRevision] using hm
        exact hd
  | ignores hl hq hp hs =>
    -- what is read in excess joins the rest, of which nothing is asked
    obtain ⟨t, c₁, t', c₂, rest, hi, hlast, hphase⟩ := told_final ht hl.selecting hp
    unfold Told
    simp only [hphase, hl.selecting]
    exact ⟨t, c₁, t', c₂, _, hi.add [] rfl, hlast, rfl⟩
  | halfCloses hl hq hg hp =>
    rw [History.add_none]
    exact ht
  | @deliversFirst d deadline hd hp hdl =>
    unfold Told at ht ⊢
    simp only [hp, hd.delivering] at ht ⊢
    obtain ⟨hi, hb⟩ := ht
    refine ⟨d.receivedAt, d.context, ?_⟩
    rw [← hb]
    exact hi.add [d.batch] rfl
  | @deliversSecond d deadline hd hp hdl =>
    unfold Told at ht ⊢
    simp only [hp, hd.delivering] at ht ⊢
    obtain ⟨⟨t, c, hi⟩, hb⟩ := ht
    refine ⟨t, c, d.receivedAt, d.context, [], ?_, rfl, Instant.after?_eq_some hdl⟩
    rw [← hb]
    exact hi.add [d.batch] rfl
  | ends he hl =>
    obtain ⟨hlaw, hviolation⟩ := told_exit ht he
    unfold Told
    rw [hl.phase, hl.activity, hl.ranker, hl.config]
    exact ⟨hlaw, fun reason hr => hviolation reason hr⟩

theorem told_run {x : Scene} (ht : Told x.session x.history) (moves : List Move) :
    Told (x.run moves).session (x.run moves).history := by
  refine Scene.run_induction (P := fun y => Told y.session y.history) ?_ ?_ ?_ ht moves
  · intro y c hy
    obtain ⟨_, _, _, he⟩ := y.take_eq c
    rw [he]
    exact hy
  · intro y d hy
    exact hy
  · intro y e s hs hy
    exact told_step hy hs

variable (config : Config) (ranker : Ranker) (id : Nat) (start : Instant)
  (requestCapacity replyCapacity : Nat)

theorem told_ofStart :
    let x := Scene.ofStart config ranker id start requestCapacity replyCapacity
    Told x.session x.history :=
  ⟨rfl, rfl, rfl⟩

/-- The invariant at every moment of every run from the start. -/
theorem told (moves : List Move) :
    let x := (Scene.ofStart config ranker id start requestCapacity replyCapacity).run moves
    Told x.session x.history :=
  told_run (told_ofStart ..) moves

/-- Whoever is over has kept the law, and has read three contexts if it ended in a
violation. -/
theorem told_over {r : Result} (ht : Told s h) (ho : s.activity = .over r) :
    OutputLaw s.ranker s.config.finalDelay h ∧
      ∀ reason, r = .failed (.protocolViolation reason) → 3 ≤ h.contexts.length := by
  unfold Told at ht
  rw [ho] at ht
  cases hp : s.phase with
  | closed => simpa only [hp] using ht
  | _ => simp [hp] at ht

theorem outputLaw_of_told (ht : Told s h) : OutputLaw s.ranker s.config.finalDelay h := by
  by_cases ho : ∃ r, s.activity = .over r
  · obtain ⟨r, ho⟩ := ho
    exact (told_over ht ho).1
  · obtain ⟨batches, hw, hb, hlen⟩ := told_written ht fun r hr => ho ⟨r, hr⟩
    exact { told_asking ht with
      written := ⟨batches, .none, by simp [Shaped, hw], hb, fun _ => hlen⟩ }

/-- Three places are enough for all that a session queues before it is over. -/
theorem hasRoom_of_told {x : Scene} (ht : Told x.session x.history) (hc : x.Conserved)
    (ho : ∀ r, x.session.activity ≠ .over r) (hcap : 3 ≤ x.session.stream.replies.capacity) :
    x.session.stream.replies.hasRoom = true := by
  -- fewer than three were ever queued, so fewer than three are in the channel
  obtain ⟨batches, hw, -, hlen⟩ := told_written ht ho
  have hsum := congrArg List.length hc
  rw [hw, List.length_append, List.length_map] at hsum
  unfold Channel.hasRoom
  exact decide_eq_true (by omega)

/-- **The output law holds at every moment of every run**: for every generator,
configuration and capacity, and for every order of what happens around the
session.  What has been queued is never taken back, the queue and the reader have
all of it, the session's own journal names the questions put to the ranker, and
the contexts that the law speaks of are the first of those sent. -/
theorem output_law (moves later : List Move) :
    let x := (Scene.ofStart config ranker id start requestCapacity replyCapacity).run moves
    OutputLaw ranker config.finalDelay x.history ∧
      x.history.written <+: (x.run later).history.written ∧
      x.taken ++ x.session.stream.replies.queue = x.history.written ∧
      x.session.ranked = x.history.queries.map Prod.snd ∧
      x.history.contexts <+: moves.flatMap Scene.sends := by
  intro x
  obtain ⟨hc, hk⟩ : x.session.config = config ∧ x.session.ranker = ranker :=
    Scene.run_config_ranker moves
  refine ⟨?_, Scene.written_prefix_run later,
    Scene.conserved_run (Scene.conserved_ofStart ..) moves, Scene.ranked_run rfl moves, ?_⟩
  · have hlaw := outputLaw_of_told (told config ranker id start requestCapacity replyCapacity moves)
    rwa [hc, hk] at hlaw
  · exact (Scene.fed_run (Scene.fed_ofStart ..) moves).read

end Run
end ProgressiveSearch.Session
