import ProgressiveSearch.Proofs.Session.OutputLaw

/-! # The book of a session

A session keeps five things that it changes at different moments: its phase, the
context that it has stored, and the three numbers of its `Tally`.  Between two
changes it may wait for room, or come to its end.

What holds all the time (`Booked`) is said of each number by itself, against the
history: the contexts read, those of them in excess of two, the batches queued.  The
client decides how many contexts there are, so the first two numbers can come round to
zero again; the third cannot pass three.
At its select the session has nothing under way, and there the phase tells the rest:
which context is stored, and that every question to the ranker has been answered
(`Balanced`).  A report closes the book (`Closes`).  So the deferred revision is never
due without a context, and with fewer contexts than the counters can tell apart the
whole book is right (`keeps_books`).
-/
namespace ProgressiveSearch.Session

/-- What the book says of the past, as long as the session is not over. -/
structure Booked (s : Session) (h : History) : Prop where
  seen : s.tally.requestsSeen = h.contexts.length % Word.size32
  extra : s.tally.extraRequests = (h.contexts.length - 2) % Word.size32
  sent : s.tally.batchesSent = h.written.length
  /-- Unless a batch is under way, the context stored is the one answered last. -/
  stored : (∀ d, s.activity ≠ .delivering d) → s.lastContext = (h.contexts.take 2).getLast?

/-- **Phase and book agree at the select.** -/
structure Balanced (s : Session) (h : History) : Prop where
  /-- The contexts counted are those read. -/
  seen : s.tally.requestsSeen = h.contexts.length
  /-- Each batch that was asked for has been queued. -/
  sent : s.tally.batchesSent = s.ranked.length
  first : s.phase = .awaitingFirst ↔ s.tally.requestsSeen = 0
  second : s.phase = .awaitingSecond ↔ s.tally.requestsSeen = 1
  final : (∃ deadline, s.phase = .awaitingFinal deadline) ↔ 2 ≤ s.tally.requestsSeen
  atFirst : s.phase = .awaitingFirst →
    s.tally.batchesSent = 0 ∧ s.tally.extraRequests = 0 ∧ s.lastContext = none
  atSecond : s.phase = .awaitingSecond →
    s.tally.batchesSent = 1 ∧ s.tally.extraRequests = 0 ∧
      ∃ t c, h.reads = [(t, c)] ∧ s.lastContext = some c
  /-- The deadline is counted from the moment at which the second context was read. -/
  atFinal : ∀ deadline, s.phase = .awaitingFinal deadline →
    s.tally.batchesSent = 2 ∧ s.tally.requestsSeen = 2 + s.tally.extraRequests ∧
      ∃ first t c rest, h.reads = first :: (t, c) :: rest ∧ s.lastContext = some c ∧
        deadline = t.plus s.config.finalDelay

/-- **The book as a report closes it.** -/
structure Closes (report : Report) (s : Session) (h : History) : Prop where
  seen : report.tally.requestsSeen = h.contexts.length
  sent : report.tally.batchesSent = s.ranked.length
  completed : report.ending = .completed →
    report.tally.batchesSent = 3 ∧ report.tally.requestsSeen = 2 + report.tally.extraRequests
  early : report.ending = .halfClosedEarly ∨ report.ending = .idleTimeout →
    report.tally.batchesSent = report.tally.requestsSeen ∧ report.tally.requestsSeen ≤ 1 ∧
      report.tally.extraRequests = 0

/-! ## Where a session stands -/

/-- What a session at its select has done, by its phase. -/
inductive Selects (s : Session) (h : History) : Prop
  | first (hp : s.phase = .awaitingFirst) (hi : h.Is [] [] [])
  | second {t : Instant} {c : Context} (hp : s.phase = .awaitingSecond)
      (hi : h.Is [(t, c)] [(c, 1)] [s.ranker c 1])
  | final {t t' : Instant} {c c' : Context} {rest : List (Instant × Context)}
      (hp : s.phase = .awaitingFinal (t'.plus s.config.finalDelay))
      (hi : h.Is ((t, c) :: (t', c') :: rest) [(c, 1), (c', 2)] [s.ranker c 1, s.ranker c' 2])

/-- What a session that waits for room has done, by its phase. -/
inductive Brings (s : Session) (h : History) (d : Delivery) : Prop
  | first (hp : s.phase = .awaitingFirst) (hi : h.Is [(d.receivedAt, d.context)] [(d.context, 1)] [])
  | second {t : Instant} {c : Context} (hp : s.phase = .awaitingSecond)
      (hi : h.Is [(t, c), (d.receivedAt, d.context)] [(c, 1), (d.context, 2)] [s.ranker c 1])
  | final {t t' deadline : Instant} {c : Context} {rest : List (Instant × Context)}
      (hp : s.phase = .awaitingFinal deadline)
      (hi : h.Is ((t, c) :: (t', d.context) :: rest) [(c, 1), (d.context, 2), (d.context, 3)]
        [s.ranker c 1, s.ranker d.context 2])

section Standing
variable {s : Session} {h : History}

theorem selects_of_told (ht : Told s h) (hs : s.activity = .selecting) : Selects s h := by
  unfold Told at ht
  rw [hs] at ht
  cases hp : s.phase with
  | awaitingFirst =>
    simp only [hp] at ht
    exact .first hp ht
  | awaitingSecond =>
    simp only [hp] at ht
    obtain ⟨t, c, hi⟩ := ht
    exact .second hp hi
  | awaitingFinal deadline =>
    simp only [hp] at ht
    obtain ⟨t, c, t', c', rest, hi, -, rfl⟩ := ht
    exact .final hp hi
  | closed => simp [hp] at ht

theorem brings_of_told {d : Delivery} (ht : Told s h) (hd : s.activity = .delivering d) :
    Brings s h d := by
  unfold Told at ht
  rw [hd] at ht
  cases hp : s.phase with
  | awaitingFirst =>
    simp only [hp] at ht
    exact .first hp ht.1
  | awaitingSecond =>
    simp only [hp] at ht
    obtain ⟨⟨t, c, hi⟩, -⟩ := ht
    exact .second hp hi
  | awaitingFinal deadline =>
    simp only [hp] at ht
    obtain ⟨⟨t, c, t', rest, hi, -⟩, -⟩ := ht
    exact .final hp hi
  | closed => simp [hp] at ht

/-- A session that awaits a context has read less than two, and has answered all. -/
theorem Selects.of_awaits (h' : Selects s h) (hp : s.phase.awaitsContext = true) :
    h.contexts.length < 2 ∧ h.written.length = h.contexts.length := by
  cases h' with
  | first _ hi => simp [hi.contexts, hi.written]
  | second _ hi => simp [hi.contexts, hi.written]
  | final hphase _ => simp [hphase, Phase.awaitsContext] at hp

/-- One that awaits none has read two. -/
theorem Selects.of_not_awaits (h' : Selects s h) (hp : s.phase.awaitsContext = false) :
    2 ≤ h.contexts.length := by
  cases h' with
  | first hphase _ | second hphase _ => simp [hphase, Phase.awaitsContext] at hp
  | final _ hi => simp [hi.contexts]

end Standing

/-! ## The book along a run -/

section Book
variable {s s' : Session} {h : History} {e : Deeds} {now : Instant} {stopping : Bool}

theorem booked_step (hb : Booked s h) (ht : Told s h) (hs : s.Transition now stopping e s')
    (ho : ∀ r, s'.activity ≠ .over r) : Booked s' (h.add now e) := by
  cases hs with
  | begins he _ =>
    rw [History.add_none]
    exact ⟨hb.seen, hb.extra, hb.sent, fun _ => hb.stored (by simp [he])⟩
  | @answers c _ hl _ hp =>
    -- what is awaited is the first context or the second
    have hlt := ((selects_of_told ht hl.selecting).of_awaits hp).1
    refine ⟨?_, ?_, ?_, fun hn => absurd rfl (hn _)⟩
    · simp [History.contexts_add, hb.seen, Word.next32_mod]
    · have hbefore : h.contexts.length - 2 = 0 := by omega
      have hafter : (h.contexts ++ [c]).length - 2 = 0 := by simp; omega
      rw [History.contexts_add, hafter, ← hbefore]
      exact hb.extra
    · simp [History.written_add, hb.sent]
  | defers _ _ _ _ =>
    refine ⟨?_, ?_, ?_, fun hn => absurd rfl (hn _)⟩
    · simp [History.contexts_add, hb.seen]
    · simp [History.contexts_add, hb.extra]
    · simp [History.written_add, hb.sent]
  | ignores hl _ hp _ =>
    -- two have been read, so this one is in excess, and the one stored is not touched
    have hle := (selects_of_told ht hl.selecting).of_not_awaits hp
    have hmore : h.contexts.length + 1 - 2 = h.contexts.length - 2 + 1 := by omega
    refine ⟨?_, ?_, ?_, fun hn => ?_⟩
    · simp [History.contexts_add, hb.seen, Word.next32_mod]
    · simp only [History.contexts_add, List.length_append, List.length_singleton]
      rw [hmore, hb.extra, Word.next32_mod]
    · simp [History.written_add, hb.sent]
    · rw [History.contexts_add, List.take_append_of_le_length hle]
      exact hb.stored hn
  | halfCloses _ _ _ _ =>
    rw [History.add_none]
    exact ⟨hb.seen, hb.extra, hb.sent, hb.stored⟩
  | deliversFirst hd hp _ =>
    cases brings_of_told ht hd.delivering with
    | first _ hi =>
      have hcontexts := hi.contexts
      refine ⟨?_, ?_, ?_, fun _ => ?_⟩
      · simp [History.contexts_add, hb.seen]
      · simp [History.contexts_add, hb.extra]
      · simp [History.written_add, hb.sent, hi.written, Word.next32]
      · simp [History.contexts_add, hcontexts]
    | second hp' _ | final hp' _ => cases hp.symm.trans hp'
  | deliversSecond hd hp _ =>
    cases brings_of_told ht hd.delivering with
    | second _ hi =>
      have hcontexts := hi.contexts
      refine ⟨?_, ?_, ?_, fun _ => ?_⟩
      · simp [History.contexts_add, hb.seen]
      · simp [History.contexts_add, hb.extra]
      · simp [History.written_add, hb.sent, hi.written, Word.next32]
      · simp [History.contexts_add, hcontexts]
    | first hp' _ | final hp' _ => cases hp.symm.trans hp'
  | ends _ hl => exact absurd hl.activity (ho _)

/-- Short of a full turn the counters show the numbers themselves. -/
theorem Booked.counts (hb : Booked s h) (hfew : h.contexts.length < Word.size32) :
    s.tally.requestsSeen = h.contexts.length ∧ s.tally.extraRequests = h.contexts.length - 2 :=
  ⟨hb.seen.trans (Nat.mod_eq_of_lt hfew),
    hb.extra.trans (Nat.mod_eq_of_lt (Nat.lt_of_le_of_lt (Nat.sub_le ..) hfew))⟩

/-- At its select the phase of a session tells the numbers of its book. -/
theorem balanced_of_booked (hb : Booked s h) (ht : Told s h) (hs : s.activity = .selecting)
    (hr : s.ranked = h.queries.map Prod.snd) (hfew : h.contexts.length < Word.size32) :
    Balanced s h := by
  obtain ⟨hcount, hextra⟩ := hb.counts hfew
  have hseen := hcount
  have hsent := hb.sent
  have hstored := hb.stored (by simp [hs])
  have hranked : s.ranked.length = h.queries.length := by rw [hr, List.length_map]
  cases selects_of_told ht hs with
  | first hp hi =>
    rw [hi.contexts] at hseen hextra hstored
    rw [hi.written] at hsent
    rw [hi.asks] at hranked
    exact
      { seen := hcount
        sent := hsent.trans hranked.symm
        first := iff_of_true hp hseen
        second := iff_of_false (by simp [hp]) (by simp [hseen])
        final := iff_of_false (by simp [hp]) (by simp [hseen])
        atFirst := fun _ => ⟨hsent, hextra, hstored⟩
        atSecond := by simp [hp]
        atFinal := by simp [hp] }
  | second hp hi =>
    rw [hi.contexts] at hseen hextra hstored
    rw [hi.written] at hsent
    rw [hi.asks] at hranked
    exact
      { seen := hcount
        sent := hsent.trans hranked.symm
        first := iff_of_false (by simp [hp]) (by simp [hseen])
        second := iff_of_true hp hseen
        final := iff_of_false (by simp [hp]) (by simp [hseen])
        atFirst := by simp [hp]
        atSecond := fun _ => ⟨hsent, hextra, _, _, hi.reads, hstored⟩
        atFinal := by simp [hp] }
  | final hp hi =>
    rw [hi.contexts] at hseen hextra hstored
    rw [hi.written] at hsent
    rw [hi.asks] at hranked
    simp only [List.map_cons, List.length_cons] at hseen hextra
    refine
      { seen := hcount
        sent := hsent.trans hranked.symm
        first := iff_of_false (by simp [hp]) (by omega)
        second := iff_of_false (by simp [hp]) (by omega)
        final := iff_of_true ⟨_, hp⟩ (by omega)
        atFirst := by simp [hp]
        atSecond := by simp [hp]
        atFinal := fun deadline hd => ?_ }
    obtain rfl : _ = deadline := Phase.awaitingFinal.inj (hp.symm.trans hd)
    exact ⟨hsent, by omega, _, _, _, _, hi.reads, hstored, rfl⟩

/-- A session that reports has kept its book up to the end. -/
theorem closes_exit {report : Report} (hb : Booked s h) (ht : Told s h)
    (hr : s.ranked = h.queries.map Prod.snd) (hfew : h.contexts.length < Word.size32)
    (he : s.Exit now stopping e (.reported report)) (hl : s.Transition now stopping e s') :
    Closes report s' (h.add now e) := by
  obtain ⟨hseen, hextra⟩ := hb.counts hfew
  have hsent := hb.sent
  have hranked : s'.ranked.length = h.queries.length := by
    rw [hl.ranked_eq, he.asks, hr]
    simp
  -- whoever ends before the second context has answered all that it has read
  have hearly : ∀ ending, ending ≠ .completed → s.activity = .selecting →
      s.phase.awaitsContext = true → Closes ⟨s.tally, ending⟩ s' (h.add now .none) := by
    intro ending hn hs hp
    obtain ⟨hlt, hwritten⟩ := (selects_of_told ht hs).of_awaits hp
    have hbalanced := balanced_of_booked hb ht hs hr hfew
    rw [History.add_none]
    refine ⟨hseen, ?_, fun hc => absurd hc hn, fun _ => ⟨?_, ?_, ?_⟩⟩
    · exact hbalanced.sent.trans (by rw [hranked, hr, List.length_map])
    · show s.tally.batchesSent = s.tally.requestsSeen
      omega
    · show s.tally.requestsSeen ≤ 1
      omega
    · show s.tally.extraRequests = 0
      omega
  cases he with
  | idles ha hp _ => exact hearly .idleTimeout nofun ha.selecting hp
  | closesEarly hl' _ _ hp => exact hearly .halfClosedEarly nofun hl'.selecting hp
  | completes hd hp =>
    cases brings_of_told ht hd.delivering with
    | first hphase _ | second hphase _ => simp [hphase, Phase.awaitsContext] at hp
    | final _ hi =>
      rw [hi.written] at hsent
      rw [hi.asks] at hranked
      have hlength := congrArg List.length hi.contexts
      simp only [List.length_map, List.length_cons, List.length_nil] at hsent hranked hlength
      refine ⟨?_, ?_, fun _ => ⟨?_, ?_⟩, by simp⟩
      · simp [History.contexts_add, hseen]
      · show Word.next32 s.tally.batchesSent = s'.ranked.length
        rw [hsent, hranked]
        rfl
      · show Word.next32 s.tally.batchesSent = 3
        rw [hsent]
        rfl
      · show s.tally.requestsSeen = 2 + s.tally.extraRequests
        omega

/-- The only failure of a channel would be that of a deferred revision without a
context, and there is always a context. -/
theorem Exit.no_channel {what : String} (hb : Booked s h) (ht : Told s h) :
    ¬ s.Exit now stopping e (.failed (.channel what)) := by
  intro he
  cases he with
  | unarmed ha hp _ hc =>
    have hle := (selects_of_told ht ha.selecting).of_not_awaits (by rw [hp]; rfl)
    have hstored := hb.stored (by simp [ha.selecting])
    rw [hc, eq_comm, List.getLast?_eq_none_iff, List.take_eq_nil_iff] at hstored
    rcases hstored with htwo | hnil
    · cases htwo
    · simp [hnil] at hle

end Book

/-- The book of a scene, at every moment. -/
structure Scene.Keeps (x : Scene) : Prop where
  told : Told x.session x.history
  ranked : x.session.ranked = x.history.queries.map Prod.snd
  booked : (∀ r, x.session.activity ≠ .over r) → Booked x.session x.history
  closes : x.history.contexts.length < Word.size32 → ∀ report,
    x.session.activity = .over (.reported report) → Closes report x.session x.history
  armed : ∀ what, x.session.activity ≠ .over (.failed (.channel what))

namespace Scene

variable {x : Scene}

theorem keeps_after (h : x.Keeps) {e : Deeds} {s : Session}
    (ht : x.session.Transition x.now x.stopping e s) : (x.after e s).Keeps := by
  have hb := h.booked ht.not_over
  have hranked : s.ranked = (x.history.add x.now e).queries.map Prod.snd := by
    rw [ht.ranked_eq, h.ranked, History.queries_add, List.map_append]
  refine ⟨told_step h.told ht, hranked, booked_step hb h.told ht, ?_, ?_⟩
  · intro hfew report hr
    have hbefore : x.history.contexts.length < Word.size32 := by
      refine Nat.lt_of_le_of_lt ?_ hfew
      show x.history.contexts.length ≤ (x.history.add x.now e).contexts.length
      rw [History.contexts_add, List.length_append]
      exact Nat.le_add_right _ _
    cases ht with
    | ends he hl =>
      obtain rfl := Activity.over.inj (hl.activity.symm.trans hr)
      exact closes_exit hb h.told h.ranked hbefore he (.ends he hl)
    | ignores hl _ _ _ | halfCloses hl _ _ _ => cases hl.selecting.symm.trans hr
    | _ => cases hr
  · intro what hf
    cases ht with
    | ends he hl =>
      obtain rfl := Activity.over.inj (hl.activity.symm.trans hf)
      exact Exit.no_channel hb h.told he
    | ignores hl _ _ _ | halfCloses hl _ _ _ => cases hl.selecting.symm.trans hf
    | _ => cases hf

theorem keeps_ofStart (config : Config) (ranker : Ranker) (id : Nat) (start : Instant)
    (requestCapacity replyCapacity : Nat) :
    (ofStart config ranker id start requestCapacity replyCapacity).Keeps where
  told := told_ofStart ..
  ranked := rfl
  booked _ := ⟨rfl, rfl, rfl, fun _ => rfl⟩
  closes := nofun
  armed := nofun

theorem keeps_run (h : x.Keeps) (moves : List Move) : (x.run moves).Keeps := by
  refine run_induction (P := Keeps) ?_ ?_ ?_ h moves
  · intro y c hy
    obtain ⟨_, _, _, he⟩ := y.take_eq c
    rw [he]
    exact ⟨hy.told, hy.ranked, fun ho => ⟨(hy.booked ho).seen, (hy.booked ho).extra,
      (hy.booked ho).sent, (hy.booked ho).stored⟩, fun hf r hr => ⟨(hy.closes hf r hr).seen,
        (hy.closes hf r hr).sent, (hy.closes hf r hr).completed, (hy.closes hf r hr).early⟩,
      hy.armed⟩
  · intro y d hy
    exact ⟨hy.told, hy.ranked, hy.booked, hy.closes, hy.armed⟩
  · intro y e s ht hy
    exact keeps_after hy ht

end Scene

/-- **A session keeps its book**, at every moment of every run: at its select phase
and book agree and a report closes the book, as long as the counters can tell the
contexts apart, and no deferred revision is ever due without the context that it
answers. -/
theorem keeps_books (config : Config) (ranker : Ranker) (id : Nat) (start : Instant)
    (requestCapacity replyCapacity : Nat) (moves : List Move) :
    let x := (Scene.ofStart config ranker id start requestCapacity replyCapacity).run moves
    (x.history.contexts.length < Word.size32 →
      (x.session.activity = .selecting → Balanced x.session x.history) ∧
        ∀ report, x.session.activity = .over (.reported report) →
          Closes report x.session x.history) ∧
      ∀ what, x.session.activity ≠ .over (.failed (.channel what)) := by
  intro x
  have hx : x.Keeps := Scene.keeps_run (Scene.keeps_ofStart ..) moves
  refine ⟨fun hfew => ⟨fun hs => ?_, hx.closes hfew⟩, hx.armed⟩
  exact balanced_of_booked (hx.booked (by simp [hs])) hx.told hs hx.ranked hfew

/-- A client that says one thing more than it should, and gets all its answers. -/
def chatter : List Move :=
  let send := Move.cue (.send (.context ⟨"mug", "B1", ""⟩))
  [.step, send, .step, .step, send, .step, .step, send, .step, .pass Config.standard.finalDelay,
    .step, .step]

/-- The book of its call is closed with the context in excess on it. -/
theorem keeps_books_chatter :
    let x := (Scene.ofStart .standard .nothing 1 .start 1 3).run chatter
    let report : Report := ⟨⟨1, .start, 3, 1, 3⟩, .completed⟩
    x.history.contexts.length < Word.size32 ∧
      x.session.activity = .over (.reported report) ∧ Closes report x.session x.history := by
  intro x report
  have hfew : x.history.contexts.length < Word.size32 := by decide
  have hover : x.session.activity = .over (.reported report) := by decide
  have hkept := keeps_books .standard .nothing 1 .start 1 3 chatter
  exact ⟨hfew, hover, (hkept.1 hfew).2 report hover⟩

end ProgressiveSearch.Session
