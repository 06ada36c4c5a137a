import ProgressiveSearch.Proofs.Exchange.Selection

/-! # What a receiver reports

For each batch that it takes, the receiver of an exchange reports how the batch stands
to the protocol and to the batches taken before it.  It reads this off its buffer; here
it is told from the history (`Reports`): whether the revision is one of the three,
whether a greater one has been taken, and whether one like it has, and then with how
many items.

The reports are true of every run (`reports_truly`), whatever comes and in whatever
order.  So the batches reported as received are the revisions of the outcome, one for
each, and as many as the last event counts.
-/
namespace ProgressiveSearch.Exchange

/-- The event tells of a batch that was taken. -/
def Event.tellsOfBatch : Event → Bool
  | .outsideRange _ | .outOfOrder .. | .replaced .. | .received .. => true
  | _ => false

/-- The event says that a batch was received. -/
def Event.saysReceived (e : Event) : Bool := e.message = "Received batch"

@[simp] theorem Event.saysReceived_received (revision : UInt32) (items : Nat) (elapsed : Duration) :
    (Event.received revision items elapsed).saysReceived = true := rfl

/-- Nothing else says so. -/
theorem Event.saysReceived_eq_false {e : Event}
    (h : ∀ revision items elapsed, e ≠ .received revision items elapsed) :
    e.saysReceived = false := by
  cases e with
  | received revision items elapsed => exact absurd rfl (h revision items elapsed)
  | _ => simp [saysReceived, message]

/-- What is said to be received was taken. -/
theorem Event.tellsOfBatch_of_saysReceived {e : Event} (h : e.saysReceived = true) :
    e.tellsOfBatch = true := by
  cases e with
  | received revision items elapsed => rfl
  | _ => simp [saysReceived, message] at h

/-- The revisions of the protocol are the first three. -/
theorem inRange_iff {revision : UInt32} :
    Contract.inRange revision = true ↔ 1 ≤ revision ∧ revision ≤ 3 := by
  rw [Contract.inRange, Bool.and_eq_true, decide_eq_true_iff, decide_eq_true_iff]
  rfl

/-! ## The reports of a history -/

/-- What is said of a revision: something if it is not one of the protocol. -/
inductive RangeNote (b : Batch) : List Event → Prop
  | within (h : 1 ≤ b.revision ∧ b.revision ≤ 3) : RangeNote b []
  | outside (h : ¬ (1 ≤ b.revision ∧ b.revision ≤ 3)) : RangeNote b [.outsideRange b.revision]

/-- What is said of the order: something if a greater revision was taken before, and
then which one is the greatest. -/
inductive OrderNote (earlier : List Batch) (b : Batch) : List Event → Prop
  | inOrder (h : ∀ x ∈ earlier, x.revision ≤ b.revision) : OrderNote earlier b []
  | late {highest : UInt32} (hlt : b.revision < highest)
      (htaken : ∃ x ∈ earlier, x.revision = highest)
      (hle : ∀ x ∈ earlier, x.revision ≤ highest) :
      OrderNote earlier b [.outOfOrder b.revision highest]

/-- How the batch is stored: as the first of its revision, or in the place of the last
one before it. -/
inductive StorageNote (earlier : List Batch) (b : Batch) (elapsed : Duration) : Event → Prop
  | received (h : ∀ x ∈ earlier, x.revision ≠ b.revision) :
      StorageNote earlier b elapsed (.received b.revision b.items.length elapsed)
  | replaced {old : Batch} (h : RevisionBuffer.lastWrite? earlier b.revision = some old) :
      StorageNote earlier b elapsed
        (.replaced b.revision old.items.length b.items.length elapsed)

/-- **What is reported of batches taken one after the other**, each at its moment. -/
inductive Reports (startedAt : Instant) : List (Instant × Batch) → List Event → Prop
  | nothing : Reports startedAt [] []
  | batch {taken : List (Instant × Batch)} {events range order : List Event} {storage : Event}
      {t : Instant} {b : Batch} (h : Reports startedAt taken events) (hrange : RangeNote b range)
      (horder : OrderNote (taken.map Prod.snd) b order)
      (hstorage : StorageNote (taken.map Prod.snd) b (startedAt.elapsed t) storage) :
      Reports startedAt (taken ++ [(t, b)]) (events ++ (range ++ order ++ [storage]))

section Reports
variable {earlier : List Batch} {b : Batch} {elapsed : Duration} {startedAt t : Instant}
  {taken : List (Instant × Batch)} {events : List Event}

/-- A buffer knows what there is to note about the next batch. -/
theorem notes_ofList (earlier : List Batch) (b : Batch) : ∃ range order,
    notes (.ofList earlier) b = range ++ order ∧ RangeNote b range ∧ OrderNote earlier b order := by
  refine ⟨_, _, rfl, ?_, ?_⟩
  · split
    · rename_i h
      exact .within (inRange_iff.mp h)
    · rename_i h
      exact .outside (mt inRange_iff.mpr h)
  · split
    · rename_i highest hh
      obtain ⟨hmem, hmax⟩ := ((RevisionBuffer.refines_ofList earlier).highest highest).mp hh
      have hle : ∀ x ∈ earlier, x.revision ≤ highest := by
        intro x hx
        exact hmax _ (RevisionBuffer.mem_revisions_ofList.mpr ⟨x, hx, rfl⟩)
      split
      · rename_i hlt
        exact .late hlt (RevisionBuffer.mem_revisions_ofList.mp hmem) hle
      · rename_i hnot
        exact .inOrder fun x hx => UInt32.le_trans (hle x hx) (UInt32.not_lt.mp hnot)
    · rename_i hh
      -- nothing has been taken
      rw [RevisionBuffer.highest?_ofList, Option.map_eq_none_iff] at hh
      obtain rfl : earlier = [] := RevisionBuffer.latest?_ofList_eq_none.mp hh
      exact .inOrder (by simp)

/-- A buffer knows which batch the next one replaces. -/
theorem stored_ofList (earlier : List Batch) (b : Batch) (elapsed : Duration) :
    StorageNote earlier b elapsed (stored (.ofList earlier) b elapsed) := by
  have hbuffer := RevisionBuffer.refines_ofList earlier
  unfold stored
  rw [hbuffer.replaced, hbuffer.get]
  cases h : RevisionBuffer.lastWrite? earlier b.revision with
  | none => exact .received (RevisionBuffer.lastWrite?_eq_none.mp h)
  | some old => exact .replaced h

/-- **One more batch**: what a receiver reports when it stores it is what there is to
report. -/
theorem Reports.store (h : Reports startedAt taken events) (t : Instant) (b : Batch) :
    Reports startedAt (taken ++ [(t, b)])
      (events ++ (notes (.ofList (taken.map Prod.snd)) b ++
        [stored (.ofList (taken.map Prod.snd)) b (startedAt.elapsed t)])) := by
  obtain ⟨range, order, hnotes, hrange, horder⟩ := notes_ofList (taken.map Prod.snd) b
  rw [hnotes]
  exact .batch h hrange horder (stored_ofList _ b _)

/-- Of no batches there is nothing to report. -/
theorem Reports.eq_nil (h : Reports startedAt [] events) : events = [] := by
  generalize hnone : ([] : List (Instant × Batch)) = taken at h
  cases h with
  | nothing => rfl
  | batch _ _ _ _ => simp at hnone

/-- What is said of the revision alone says nothing of receiving. -/
theorem RangeNote.countP (h : RangeNote b events) : events.countP Event.saysReceived = 0 := by
  cases h with
  | within _ => rfl
  | outside _ => simp [Event.saysReceived_eq_false]

theorem OrderNote.countP (h : OrderNote earlier b events) :
    events.countP Event.saysReceived = 0 := by
  cases h with
  | inOrder _ => rfl
  | late _ _ _ => simp [Event.saysReceived_eq_false]

/-- A batch is said to be received if the buffer grows by it. -/
theorem StorageNote.countP {e : Event} (h : StorageNote earlier b elapsed e) :
    (RevisionBuffer.ofList earlier).size + [e].countP Event.saysReceived =
      ((RevisionBuffer.ofList earlier).insert b).size := by
  have hbuffer := RevisionBuffer.refines_ofList earlier
  rw [RevisionBuffer.size_insert, hbuffer.replaced, hbuffer.get]
  cases h with
  | received h => simp [RevisionBuffer.lastWrite?_eq_none.mpr h]
  | replaced h => simp [h, Event.saysReceived_eq_false]

/-- **As many batches are reported as received as there are revisions.** -/
theorem Reports.countP (h : Reports startedAt taken events) :
    events.countP Event.saysReceived = (RevisionBuffer.ofList (taken.map Prod.snd)).size := by
  induction h with
  | nothing => rfl
  | batch _ hrange horder hstorage ih =>
    rw [List.map_append, List.map_singleton, RevisionBuffer.ofList_concat, ← hstorage.countP, ← ih]
    simp only [List.countP_append, hrange.countP, horder.countP, Nat.zero_add]

end Reports

/-! ## What steps add to the journal -/

section Steps
variable {x x' : Exchange} {now : Instant}

/-- A step adds events to the journal, none of which tells of a batch. -/
def AddsNothing (x x' : Exchange) : Prop :=
  ∃ more, x'.journal = x.journal ++ more ∧ more.filter Event.tellsOfBatch = []

theorem addsNothing_decide (x : Exchange) (now : Instant) : x.AddsNothing (x.decide now) := by
  unfold decide
  dsimp only
  split
  · exact ⟨[_], rfl, rfl⟩
  · split
    · exact ⟨[_, _], List.append_assoc _ _ _, rfl⟩
    · exact ⟨[_, _], List.append_assoc _ _ _, rfl⟩

/-- The caller tells of no batch that was taken. -/
theorem Turn.addsNothing {said : List Context} (h : x.Turn now said x') : x.AddsNothing x' := by
  cases h with
  | announces _ => exact ⟨[_, _], rfl, rfl⟩
  | resumes _ _ => exact ⟨[_], rfl, rfl⟩
  | sendsSecond _ _ => exact addsNothing_decide _ now
  | @concludes termination _ _ _ =>
    refine ⟨[verdict (x.outcome now termination)], rfl, ?_⟩
    unfold verdict
    split <;> rfl
  | _ => exact ⟨[], (List.append_nil _).symm, rfl⟩

/-- The time of a call is counted from the moment at which it is announced. -/
theorem Turn.startedAt {said : List Context} (h : x.Turn now said x') :
    x'.startedAt = x.startedAt ∨ x.stage = .starting := by
  cases h with
  | announces hs => exact .inr hs
  | sendsSecond _ _ =>
    obtain ⟨stage, source, drawn, journal, he, -⟩ :=
      (x.say x.request.secondContext).decide_spec now
    exact .inl (by rw [he]; rfl)
  | _ => exact .inl rfl

/-- An exchange that is over has told what came of it, last of all. -/
def Reported (x : Exchange) : Prop :=
  ∀ o, x.stage = .over o → x.journal.getLast? = some (verdict o)

theorem Turn.reported {said : List Context} (h : x.Turn now said x') : x'.Reported := by
  intro o ho
  cases h with
  | concludes _ _ =>
    obtain rfl := Stage.over.inj ho
    exact List.getLast?_concat
  | sendsSecond _ _ =>
    obtain ⟨stage, source, drawn, journal, he, hstage⟩ :=
      (x.say x.request.secondContext).decide_spec now
    rw [he] at ho
    rcases hstage with rfl | ⟨deadline, rfl⟩
    · cases ho
    · cases ho
  | _ => cases ho

/-- **What the receiver tells in a step**: of a batch what its buffer knows about it, and
of anything else nothing that concerns batches. -/
theorem Hearing.tells {heard : List Reply} (h : x.Hearing now heard x') :
    heard.filterMap Reply.batch? = [] ∧ x.AddsNothing x' ∨
      ∃ b, heard = [.batch b] ∧ x'.journal =
        x.journal ++ (notes x.buffer b ++ [stored x.buffer b (x.startedAt.elapsed now)]) := by
  cases h with
  | isStopped _ _ => exact .inl ⟨rfl, [], (List.append_nil _).symm, rfl⟩
  | completes _ _ _ _ => exact .inl ⟨rfl, [_], rfl, rfl⟩
  | @takes reply _ _ _ _ =>
    cases reply with
    | batch b => exact .inr ⟨b, rfl, List.append_assoc _ _ _⟩
    | failed status => exact .inl ⟨rfl, [_], rfl, rfl⟩
    | fault => exact .inl ⟨rfl, [], (List.append_nil _).symm, rfl⟩

/-- All that there is to say about a batch tells of it. -/
theorem filter_notes_stored (buffer : RevisionBuffer) (b : Batch) (elapsed : Duration) :
    (notes buffer b ++ [stored buffer b elapsed]).filter Event.tellsOfBatch =
      notes buffer b ++ [stored buffer b elapsed] := by
  rw [List.filter_eq_self]
  intro e he
  rcases List.mem_append.mp he with hnote | hstored
  · unfold notes at hnote
    dsimp only at hnote
    grind [Event.tellsOfBatch]
  · rw [List.mem_singleton.mp hstored, stored]
    split <;> rfl

end Steps

namespace Setting

/-- The batches that the receiver took, each with its moment. -/
def taken (x : Setting) : List (Instant × Batch) :=
  x.heard.filterMap fun entry => entry.2.batch?.map (entry.1, ·)

theorem map_snd_taken (x : Setting) : x.taken.map Prod.snd = x.batches := by
  simp [taken, batches, replies, List.map_filterMap, List.filterMap_map, Function.comp_def]

theorem taken_afterHearing (x : Setting) (heard : List Reply) (e : Exchange) :
    (x.afterHearing heard e).taken =
      x.taken ++ (heard.filterMap Reply.batch?).map (x.now, ·) := by
  unfold taken afterHearing
  rw [List.filterMap_append, List.filterMap_map, List.map_filterMap]
  rfl

/-- **What a run has told since it began with this journal.** -/
structure Testifies (journal : List Event) (x : Setting) : Prop where
  /-- Nothing is heard before there is a receiver. -/
  silent : x.exchange.receiver = .absent → x.heard = []
  reports : ∃ later, x.exchange.journal = journal ++ later ∧
    Reports x.exchange.startedAt x.taken (later.filter Event.tellsOfBatch)
  reported : x.exchange.Reported

section Run
variable {x : Setting} {journal : List Event}

theorem testifies_around {e : Exchange} (h : e.Fresh) (now : Instant) :
    (around e now).Testifies e.journal where
  silent _ := rfl
  reports := ⟨[], (List.append_nil _).symm, .nothing⟩
  reported o ho := by
    rcases h.stage with ⟨hs, -⟩ | hs
    · cases hs.symm.trans ho
    · cases hs.symm.trans ho

theorem testifies_take (h : x.Testifies journal) (c : Cue) : (x.take c).Testifies journal := by
  obtain ⟨_, _, _, _, he⟩ := x.take_eq c
  rw [he]
  exact ⟨h.silent, h.reports, h.reported⟩

/-- A step that tells of no batch leaves the reports alone. -/
theorem Testifies.reports_addsNothing {e : Exchange} (h : x.Testifies journal)
    (hadds : x.exchange.AddsNothing e) : ∃ later, e.journal = journal ++ later ∧
      Reports x.exchange.startedAt x.taken (later.filter Event.tellsOfBatch) := by
  obtain ⟨later, hj, hreports⟩ := h.reports
  obtain ⟨more, he, hmore⟩ := hadds
  refine ⟨later ++ more, by rw [he, hj, List.append_assoc], ?_⟩
  rwa [List.filter_append, hmore, List.append_nil]

theorem testifies_turn {said : List Context} {e : Exchange} (h : x.Testifies journal)
    (hspoken : Spoken x.exchange x.contexts) (ht : x.exchange.Turn x.now said e) :
    (x.afterTurn said e).Testifies journal where
  silent habsent := by
    rcases hspoken.receiver_turn ht with hsame | ⟨hold, -⟩
    · exact h.silent (hsame.symm.trans habsent)
    · exact h.silent hold
  reports := by
    obtain ⟨later, hj, hreports⟩ := h.reports_addsNothing ht.addsNothing
    refine ⟨later, hj, ?_⟩
    show Reports e.startedAt x.taken _
    rcases ht.startedAt with hsame | hstarting
    · rwa [hsame]
    · -- the call is announced, and there has been no receiver to take anything
      have habsent : x.exchange.receiver = .absent := by
        unfold Spoken at hspoken
        rw [hstarting] at hspoken
        exact hspoken.2
      have hnone : x.taken = [] := by rw [taken, h.silent habsent, List.filterMap_nil]
      rw [hnone] at hreports ⊢
      rw [hreports.eq_nil]
      exact .nothing
  reported := ht.reported

theorem testifies_hearing {heard : List Reply} {e : Exchange} (h : x.Testifies journal)
    (ha : x.Attentive) (hconcluded : Concluded x.exchange)
    (hh : x.exchange.Hearing x.now heard e) : (x.afterHearing heard e).Testifies journal where
  silent habsent := by
    rcases hh.receiver.2.2 with ⟨hreading, -⟩ | ⟨ending, hover⟩
    · cases hreading.symm.trans habsent
    · cases hover.symm.trans habsent
  reports := by
    show ∃ later, e.journal = _ ∧ Reports e.startedAt _ _
    rw [hh.keeps.2.1, taken_afterHearing]
    rcases hh.tells with ⟨hnone, hadds⟩ | ⟨b, rfl, hj⟩
    · rw [hnone, List.map_nil, List.append_nil]
      exact h.reports_addsNothing hadds
    · obtain ⟨later, hlater, hreports⟩ := h.reports
      refine ⟨_, by rw [hj, hlater, List.append_assoc], ?_⟩
      -- the buffer is filled by what was taken, so it answers for the history
      have hbuffer : x.exchange.buffer = .ofList (x.taken.map Prod.snd) := by
        rw [map_snd_taken]
        exact ha.stored
      rw [List.filter_append, filter_notes_stored, hbuffer]
      exact hreports.store x.now b
  reported o ho := by
    -- the receiver of an exchange that is over hears nothing
    obtain ⟨⟨ending, hover⟩, -⟩ := hconcluded o (hh.minds.stage.symm.trans ho)
    exact absurd hover (by simp [hh.receiver.1])

theorem testifies_run (hf : x.Faithful) (h : x.Testifies journal) (moves : List Move) :
    (x.run moves).Testifies journal := by
  refine (run_induction (P := fun y => y.Faithful ∧ y.Testifies journal)
    ?_ ?_ ?_ ?_ ⟨hf, h⟩ moves).2
  · rintro y c ⟨hf, hy⟩
    exact ⟨faithful_take hf c, testifies_take hy c⟩
  · rintro y d ⟨hf, hy⟩
    exact ⟨faithful_pass hf _, hy.silent, hy.reports, hy.reported⟩
  · rintro y said e ht ⟨hf, hy⟩
    exact ⟨faithful_turn hf ht, testifies_turn hy hf.spoken ht⟩
  · rintro y heard e hh ⟨hf, hy⟩
    exact ⟨faithful_hearing hf hh, testifies_hearing hy hf.attentive hf.concluded hh⟩

end Run

end Setting

/-- The number that the event at the end of a call counts, if it selects something. -/
theorem versions_mem_fields (o : Outcome) (n : Nat) :
    .number "versions_considered" n ∈ (verdict o).fields ↔
      o.found = true ∧ n = o.revisions.length := by
  unfold verdict Outcome.found
  cases o.selected with
  | none => simp [Event.fields, Log.Field.number, Log.Field.plain, Log.Field.elapsed]
  | some b => simp [Event.fields, Log.Field.number, Log.Field.plain, Log.Field.elapsed]

/-- **What a receiver reports is true**, whatever comes and in whatever order, and
however the call ends.  Of the batches that it took, in the order in which they came,
it tells what there is to tell, each once, and nothing else of batches.  So what it
reports as received are as many batches as the outcome has revisions, and as the event
at the end counts if it selects one of them. -/
theorem reports_truly {e : Exchange} (h : e.Fresh) (now : Instant) (moves : List Move) :
    let x := (Setting.around e now).run moves
    x.taken.map Prod.snd <+: x.brought.filterMap Reply.batch? ∧
    ∃ later, x.exchange.journal = e.journal ++ later ∧
      Reports x.exchange.startedAt x.taken (later.filter Event.tellsOfBatch) ∧
      ∀ o, x.exchange.outcome? = some o →
        later.countP Event.saysReceived = o.revisions.length ∧
        x.exchange.journal.getLast? = some (verdict o) ∧
        ∀ n, .number "versions_considered" n ∈ (verdict o).fields ↔
          o.found = true ∧ n = later.countP Event.saysReceived := by
  intro x
  have hf : x.Faithful := Setting.faithful_run (Setting.faithful_around h now) moves
  have ht : x.Testifies e.journal :=
    Setting.testifies_run (Setting.faithful_around h now) (Setting.testifies_around h now) moves
  have htaken : x.taken.map Prod.snd = x.batches := x.map_snd_taken
  obtain ⟨later, hj, hreports⟩ := ht.reports
  refine ⟨htaken ▸ hf.attentive.heard.filterMap _, later, hj, hreports, fun o ho => ?_⟩
  have hover := Setting.stage_of_outcome ho
  obtain ⟨-, -, hrevisions⟩ := hf.concluded o hover
  have hcount : later.countP Event.saysReceived = o.revisions.length := by
    have hfilter := hreports.countP
    rw [List.countP_filter] at hfilter
    rw [hrevisions, RevisionBuffer.length_revisions, hf.attentive.stored, ← Setting.batches,
      ← htaken, ← hfilter]
    refine List.countP_congr fun e _ => ?_
    simpa using fun hsays => Event.tellsOfBatch_of_saysReceived hsays
  refine ⟨hcount, ht.reported o hover, fun n => ?_⟩
  rw [hcount]
  exact versions_mem_fields o n

/-- Of the batches in `disorder`, two are of a revision that is none of the protocol, two
come after a greater revision, and two replace an earlier one.  Three are received. -/
theorem reports_truly_disordered :
    Reports .start disordered.taken (disordered.exchange.journal.filter Event.tellsOfBatch) ∧
      disordered.exchange.journal.filter Event.tellsOfBatch =
        [.received 2 0 .zero, .outsideRange 7, .received 7 0 .zero,
          .outOfOrder 1 7, .received 1 0 .zero, .outsideRange 7, .replaced 7 0 1 .zero,
          .outOfOrder 1 7, .replaced 1 0 0 .zero] ∧
      disordered.exchange.journal.countP Event.saysReceived = 3 := by
  have hf : (prepare ⟨"mug", "B1", "large"⟩ .standard ⟨fun _ => 0, 0⟩ (.ofCapacities 4 8)).Fresh :=
    ⟨.inl ⟨rfl, rfl⟩, rfl, rfl, rfl⟩
  have ho : disordered.exchange.outcome? = some
      ⟨some ⟨[⟨"B1", "a", .zero⟩], 7⟩, [1, 2, 7], none, .streamFailed .internal, .zero⟩ := by decide
  obtain ⟨-, later, hj, hreports, hover⟩ := reports_truly hf .start _
  -- nothing was in the journal before, so all of it came later
  obtain rfl : disordered.exchange.journal = later := hj
  exact ⟨hreports, by decide, (hover _ ho).1⟩

end ProgressiveSearch.Exchange
