import ProgressiveSearch.Proofs.Exchange.Prospect
import ProgressiveSearch.Proofs.Exchange.Selection

/-! # An exchange that plays against a script

In a `Play` an exchange that goes on from its first context meets a script.  What
the script has for the moment comes first, then the tasks take what steps they can,
and only when there is nothing left to do does time go on: to the next entry of the
script, or to the moment at which the caller is woken by its clock.

If both tasks can take a step, a sequence of choices says whether the receiver goes
first.
-/
namespace ProgressiveSearch.Exchange

/-- What is to be said about the end of an exchange. -/
inductive Verdict where
  | concluded (termination : Termination) (elapsed : Duration)
  | brokenDown
  deriving DecidableEq

/-- The verdict on an exchange that has come to its end. -/
def verdict? (e : Exchange) : Option Verdict :=
  match e.stage with
  | .over o => some (.concluded o.termination o.elapsed)
  | .brokenDown => some .brokenDown
  | _ => none

/-- The verdict that a forecast comes to for a call that began at `startedAt`. -/
def verdictOf (startedAt : Instant) : Forecast → Verdict
  | (t, some termination) => .concluded termination (startedAt.elapsed t)
  | (_, none) => .brokenDown

/-- An exchange that goes on from its first context, sent or not, with room for the
second on the requests and nothing on the replies. -/
structure Resumed (e : Exchange) : Prop where
  resuming : e.stage = .resuming
  absent : e.receiver = .absent
  empty : e.buffer = .empty
  uncancelled : e.cancelled = false
  unstopped : e.stopping = false
  accepts : e.Accepts
  silent : e.stream.replies.queue = []
  bound : e.stream.replies.senderGone = false
  read : e.stream.replies.receiverGone = false

theorem Resumed.fresh {e : Exchange} (h : e.Resumed) : e.Fresh :=
  ⟨.inr h.resuming, h.absent, h.empty, h.read⟩

/-- An exchange in its surroundings, and what the script still has for it. -/
structure Play where
  setting : Setting
  script : Script

namespace Play

/-- A play that is about to begin. -/
def ofResumed (e : Exchange) (start : Instant) (script : Script) : Play where
  setting := .around e start
  script

variable (p : Play) (clock : Clock)

/-- The next entry of the script, if its moment has come. -/
def due? : Option (Cue × Script) :=
  match p.script with
  | (t, c) :: rest => if t ≤ p.setting.now then some (c, rest) else none
  | [] => none

/-- When the caller is woken. -/
def wakesAt : Option Instant := p.setting.exchange.wakesAt.map (clock.wakes p.setting.now)

/-- The moment up to which nothing happens. -/
def nextMoment? : Option Instant :=
  match p.script, p.wakesAt clock with
  | (t, _) :: _, some u => some (if t ≤ u then t else u)
  | (t, _) :: _, none => some t
  | [], wake => wake

/-- The task that takes the next step. -/
def mover? (receiverFirst : Bool) : Option Move :=
  let x := p.setting
  match x.exchange.call x.now, x.exchange.receive x.now with
  | none, none => none
  | some _, none => some .call
  | none, some _ => some .receive
  | some _, some _ => some (if receiverFirst then .receive else .call)

/-- What happens next. -/
def next (receiverFirst : Bool) : Play :=
  if p.setting.exchange.verdict?.isSome then p
  else
    match p.due? with
    | some (c, rest) => ⟨p.setting.take c, rest⟩
    | none =>
      match p.mover? receiverFirst with
      | some m => { p with setting := p.setting.act m }
      | none =>
        match p.nextMoment? clock with
        | some t => { p with setting := p.setting.act (.pass (p.setting.now.elapsed t)) }
        | none => p

/-- The play after `n` things have happened. -/
def after (choices : Nat → Bool) : Nat → Play
  | 0 => p
  | n + 1 => (after choices n).next clock (choices n)

/-- The exchange ends at `t` with this verdict. -/
def EndsAt (choices : Nat → Bool) (t : Instant) (v : Verdict) : Prop :=
  ∃ n, (p.after clock choices n).setting.exchange.verdict? = some v ∧
    (p.after clock choices n).setting.now = t

/-- **The ways on** for an exchange that has not come to its end.  The caller takes a
step before the receiver only if that is chosen. -/
inductive Advance (receiverFirst : Bool) : Play → Prop
  | takes {t : Instant} {c : Cue} {rest : Script} (hs : p.script = (t, c) :: rest)
      (ht : t ≤ p.setting.now) : Advance receiverFirst ⟨p.setting.take c, rest⟩
  | calls {said : List Context} {e : Exchange} (hd : p.due? = none)
      (ht : p.setting.exchange.Turn p.setting.now said e)
      (hr : receiverFirst = true → p.setting.exchange.receive p.setting.now = none) :
      Advance receiverFirst { p with setting := p.setting.afterTurn said e }
  | hears {heard : List Reply} {e : Exchange} (hd : p.due? = none)
      (hh : p.setting.exchange.Hearing p.setting.now heard e) :
      Advance receiverFirst { p with setting := p.setting.afterHearing heard e }
  | waits {t : Instant} (hd : p.due? = none)
      (hc : p.setting.exchange.call p.setting.now = none)
      (hr : p.setting.exchange.receive p.setting.now = none) (hn : p.nextMoment? clock = some t) :
      Advance receiverFirst { p with setting := p.setting.act (.pass (p.setting.now.elapsed t)) }

section Advance
variable {p clock} {receiverFirst : Bool} {choices : Nat → Bool}

theorem mover?_eq_none (h : p.mover? receiverFirst = none) :
    p.setting.exchange.call p.setting.now = none ∧
      p.setting.exchange.receive p.setting.now = none := by
  unfold mover? at h
  dsimp only at h
  split at h
  · rename_i hc hr
    exact ⟨hc, hr⟩
  · cases h
  · cases h
  · cases h

/-- The caller moves only if the receiver cannot, or need not go first. -/
theorem mover?_eq_call (h : p.mover? receiverFirst = some .call) (hf : receiverFirst = true) :
    p.setting.exchange.receive p.setting.now = none := by
  unfold mover? at h
  dsimp only at h
  split at h
  · cases h
  · rename_i hr
    exact hr
  · cases h
  · simp [hf] at h

theorem mover?_cases {m : Move} (h : p.mover? receiverFirst = some m) :
    (m = .call ∧ ∃ e, p.setting.exchange.call p.setting.now = some e) ∨
      m = .receive ∧ ∃ e, p.setting.exchange.receive p.setting.now = some e := by
  unfold mover? at h
  dsimp only at h
  split at h
  · cases h
  · rename_i hc _
    exact .inl ⟨(Option.some.inj h).symm, _, hc⟩
  · rename_i hr
    exact .inr ⟨(Option.some.inj h).symm, _, hr⟩
  · rename_i hc hr
    cases receiverFirst with
    | true => exact .inr ⟨(Option.some.inj h).symm, _, hr⟩
    | false => exact .inl ⟨(Option.some.inj h).symm, _, hc⟩

/-- A step of either task is a way on. -/
theorem advance_mover {m : Move} (hd : p.due? = none) (h : p.mover? receiverFirst = some m) :
    p.Advance clock receiverFirst { p with setting := p.setting.act m } := by
  rcases mover?_cases h with ⟨rfl, e, hc⟩ | ⟨rfl, e, hr⟩
  · obtain ⟨said, ht⟩ := turn_of_call hc
    have he : p.setting.act .call = p.setting.afterTurn said e := by
      simp only [Setting.act, hc, ht.uttered_eq, Setting.afterTurn]
    rw [he]
    exact .calls hd ht (mover?_eq_call h)
  · obtain ⟨heard, hh⟩ := hearing_of_receive hr
    have he : p.setting.act .receive = p.setting.afterHearing heard e := by
      simp only [Setting.act, hr, hh.next_eq, Setting.afterHearing]
    rw [he]
    exact .hears hd hh

/-- What happens next is one of the ways on, unless there is nothing to wait for. -/
theorem advance_next (ho : p.setting.exchange.verdict? = none) (receiverFirst : Bool) :
    p.Advance clock receiverFirst (p.next clock receiverFirst) ∨
      p.mover? receiverFirst = none ∧ p.nextMoment? clock = none := by
  unfold next
  rw [if_neg (by simp [ho])]
  split
  · rename_i c rest hd
    unfold due? at hd
    split at hd
    · rename_i t c' rest' hs
      split at hd
      · rename_i hle
        obtain ⟨rfl, rfl⟩ := Prod.mk.inj (Option.some.inj hd)
        exact .inl (.takes hs hle)
      · cases hd
    · cases hd
  · rename_i hd
    split
    · rename_i m hm
      exact .inl (advance_mover hd hm)
    · rename_i hm
      obtain ⟨hc, hr⟩ := mover?_eq_none hm
      split
      · rename_i t hn
        exact .inl (.waits hd hc hr hn)
      · rename_i hn
        exact .inr ⟨hm, hn⟩

theorem after_over {v : Verdict} {m : Nat}
    (h : (p.after clock choices m).setting.exchange.verdict? = some v) (n : Nat) :
    p.after clock choices (m + n) = p.after clock choices m := by
  induction n with
  | zero => rfl
  | succ n ih =>
    show (p.after clock choices (m + n)).next clock _ = _
    rw [ih]
    exact if_pos (by simp [h])

/-- **An exchange ends only once.** -/
theorem EndsAt.unique {t t' : Instant} {v v' : Verdict} (h : p.EndsAt clock choices t v)
    (h' : p.EndsAt clock choices t' v') : t' = t ∧ v' = v := by
  obtain ⟨m, hv, rfl⟩ := h
  obtain ⟨n, hv', rfl⟩ := h'
  have hsame : p.after clock choices n = p.after clock choices m := by
    rcases Nat.le_total m n with hle | hle
    · obtain ⟨k, rfl⟩ := Nat.exists_eq_add_of_le hle
      exact after_over hv k
    · obtain ⟨k, rfl⟩ := Nat.exists_eq_add_of_le hle
      exact (after_over hv' k).symm
  rw [hsame] at hv' ⊢
  exact ⟨rfl, Option.some.inj (hv'.symm.trans hv)⟩

/-- The first choice is for the first step. -/
theorem after_succ (p : Play) (clock : Clock) (choices : Nat → Bool) (n : Nat) :
    p.after clock choices (n + 1) =
      (p.next clock (choices 0)).after clock (fun n => choices (n + 1)) n := by
  induction n with
  | zero => rfl
  | succ n ih => exact congrArg (next · clock (choices (n + 1))) ih

end Advance

/-! ## Without delay -/

/-- What goes with each stage of an exchange: whether the receiver has been started
and told to stop, and that the second context will not have to wait for room, but
goes out with nothing else due. -/
def Staged (e : Exchange) (nothingDue : Prop) : Prop :=
  match e.stage with
  | .starting | .offeringFirst => False
  | .resuming => e.stopping = false ∧ e.stream.requests.hasRoom = true
  | .pausing _ =>
    e.receiver ≠ .absent ∧ e.stopping = false ∧ e.stream.requests.hasRoom = true
  | .offeringSecond =>
    e.receiver ≠ .absent ∧ e.stopping = false ∧ e.stream.requests.hasRoom = true ∧ nothingDue
  | .deciding _ => e.receiver ≠ .absent ∧ e.stopping = false
  | .releasing _ => e.receiver ≠ .absent ∧ e.stopping = true
  | .over _ | .brokenDown => True

/-- A play that keeps time: neither the script nor the clock ever is behind. -/
structure Punctual (clock : Clock) (p : Play) : Prop where
  faithful : p.setting.Faithful
  staged : Staged p.setting.exchange (p.due? = none)
  order : InOrder p.setting.now p.script
  shown : clock.Shows p.setting.now
  shows : ∀ entry ∈ p.script, clock.Shows entry.1

/-- A caller who waits for a moment, with nothing for either task to do. -/
structure Idles (e : Exchange) (now deadline : Instant) : Prop where
  waiting : e.stage = .pausing deadline ∨ e.stage = .deciding deadline
  early : now < deadline
  uncancelled : e.cancelled = false
  reading : e.receiver = .reading
  silent : e.stream.replies.queue = []
  bound : e.stream.replies.senderGone = false

section Punctual
variable {p clock} {receiverFirst : Bool}

/-- A caller sees at its deadline what ends its wait. -/
theorem wake?_eq_none {e : Exchange} {now deadline : Instant} (h : e.wake? now deadline = none) :
    e.cancelled = false ∧ (∀ ending, e.receiver ≠ .over ending) ∧ now < deadline := by
  unfold wake? at h
  cases hc : e.cancelled with
  | true => simp [hc] at h
  | false =>
    rw [if_neg (by simp [hc])] at h
    split at h
    · cases h
    · rename_i hr
      split at h
      · cases h
      · rename_i hlt
        exact ⟨rfl, by simp [hr], Nat.lt_of_not_le hlt⟩
    · rename_i hr
      split at h
      · cases h
      · rename_i hlt
        exact ⟨rfl, by simp [hr], Nat.lt_of_not_le hlt⟩

/-- A receiver that waits has nothing to hear. -/
theorem receive_eq_none {e : Exchange} {now : Instant} (h : e.receive now = none)
    (hr : e.receiver = .reading) : e.stopping = false ∧ e.stream.replies.queue = [] ∧
      e.stream.replies.senderGone = false := by
  unfold receive at h
  rw [hr] at h
  dsimp only at h
  split at h
  · cases h
  · rename_i hs
    split at h
    · cases h
    · rename_i hq
      split at h
      · cases h
      · rename_i hg
        exact ⟨by simpa using hs, hq, by simpa using hg⟩

theorem offer?_ne_none {e : Exchange} (h : e.stream.requests.hasRoom = true) (c : Context) :
    e.offer? c ≠ none := by
  unfold offer?
  rw [if_pos h]
  split
  · nofun
  · nofun

/-- **If neither task takes a step, the caller waits for a moment.** -/
theorem idles_of_staged {e : Exchange} {now : Instant} {nothingDue : Prop}
    (hstaged : Staged e nothingDue) (ho : e.verdict? = none) (hc : e.call now = none)
    (hr : e.receive now = none) : ∃ deadline, Idles e now deadline := by
  have hidles : ∀ deadline, (e.stage = .pausing deadline ∨ e.stage = .deciding deadline) →
      e.receiver ≠ .absent → e.wake? now deadline = none → Idles e now deadline := by
    intro deadline hs ha hw
    obtain ⟨huncancelled, hover, hearly⟩ := wake?_eq_none hw
    have hreading : e.receiver = .reading := by
      cases hrec : e.receiver with
      | absent => exact absurd hrec ha
      | reading => rfl
      | «over» ending => exact absurd hrec (hover ending)
    obtain ⟨-, hsilent, hbound⟩ := receive_eq_none hr hreading
    exact ⟨hs, hearly, huncancelled, hreading, hsilent, hbound⟩
  unfold Staged at hstaged
  unfold call at hc
  cases hs : e.stage with
  | starting | offeringFirst => simp only [hs] at hstaged
  | resuming => simp [hs] at hc
  | pausing deadline =>
    simp only [hs] at hstaged hc
    exact ⟨deadline, hidles deadline (.inl hs) hstaged.1 (Option.map_eq_none_iff.mp hc)⟩
  | offeringSecond =>
    simp only [hs] at hstaged hc
    exact absurd (Option.map_eq_none_iff.mp hc) (offer?_ne_none hstaged.2.2.1 _)
  | deciding deadline =>
    simp only [hs] at hstaged hc
    exact ⟨deadline, hidles deadline (.inr hs) hstaged.1 (Option.map_eq_none_iff.mp hc)⟩
  | releasing termination =>
    simp only [hs] at hstaged hc
    cases hrec : e.receiver with
    | absent => exact absurd hrec hstaged.1
    | reading =>
      -- a receiver that is told to stop does so
      cases hstaged.2.symm.trans (receive_eq_none hr hrec).1
    | «over» ending => simp [hrec] at hc
  | «over» o => simp [verdict?, hs] at ho
  | brokenDown => simp [verdict?, hs] at ho

theorem Punctual.idles (h : p.Punctual clock) (ho : p.setting.exchange.verdict? = none)
    (hc : p.setting.exchange.call p.setting.now = none)
    (hr : p.setting.exchange.receive p.setting.now = none) :
    ∃ deadline, Idles p.setting.exchange p.setting.now deadline :=
  idles_of_staged h.staged ho hc hr

/-- Nothing happens before the next moment. -/
theorem nextMoment_le {t : Instant} (h : p.nextMoment? clock = some t) :
    (∀ entry ∈ p.script.head?, t ≤ entry.1) ∧ ∀ u ∈ p.wakesAt clock, t ≤ u := by
  unfold nextMoment? at h
  split at h
  · rename_i t' c rest u hs hw
    obtain rfl := Option.some.inj h
    rw [hs, hw]
    simp only [List.head?_cons, Option.mem_some_iff, forall_eq']
    split
    · rename_i hle
      exact ⟨Nat.le_refl _, hle⟩
    · rename_i hnot
      exact ⟨Nat.le_of_lt (Nat.lt_of_not_le hnot), Nat.le_refl _⟩
  · rename_i t' c rest hs hw
    obtain rfl := Option.some.inj h
    simp [hs, hw, Instant.le_def]
  · rename_i hs
    simp [hs, h, Instant.le_def]

/-- The next moment comes from the script, or from the clock. -/
theorem nextMoment_mem {t : Instant} (h : p.nextMoment? clock = some t) :
    (∃ entry ∈ p.script.head?, t = entry.1) ∨ p.wakesAt clock = some t := by
  unfold nextMoment? at h
  split at h
  · rename_i t' c rest u hs hw
    obtain rfl := Option.some.inj h
    rw [hs, hw]
    split
    · exact .inl ⟨_, rfl, rfl⟩
    · exact .inr rfl
  · rename_i t' c rest hs hw
    obtain rfl := Option.some.inj h
    exact .inl ⟨_, by rw [hs]; rfl, rfl⟩
  · exact .inr h

/-- The clock shows the next moment, which is not past. -/
theorem Punctual.nextMoment (h : p.Punctual clock) {t : Instant}
    (ht : p.nextMoment? clock = some t) : p.setting.now ≤ t ∧ clock.Shows t := by
  rcases nextMoment_mem ht with ⟨entry, hmem, rfl⟩ | hw
  · have hm : entry ∈ p.script := List.mem_of_mem_head? hmem
    exact ⟨h.order.all _ hm, h.shows _ hm⟩
  · obtain ⟨deadline, -, rfl⟩ := Option.map_eq_some_iff.mp hw
    exact ⟨clock.le_wakes _ _, clock.shows_wakes h.shown _⟩

/-- Nothing that happens around an exchange takes room on the requests away. -/
theorem hasRoom_take {x : Setting} (h : x.exchange.stream.requests.hasRoom = true) (c : Cue) :
    (x.take c).exchange.stream.requests.hasRoom = true := by
  have hlt : x.exchange.stream.requests.queue.length < x.exchange.stream.requests.capacity :=
    of_decide_eq_true h
  cases c with
  | cancel | close => exact h
  | refuse =>
    refine decide_eq_true ?_
    show 0 < x.exchange.stream.requests.capacity
    omega
  | pick =>
    unfold Setting.take
    dsimp only
    split
    · rename_i a rest _ hq
      rw [hq, List.length_cons] at hlt
      refine decide_eq_true ?_
      show rest.length < x.exchange.stream.requests.capacity
      omega
    · exact h
  | bring r =>
    unfold Setting.take
    dsimp only
    split
    · exact h
    · exact h

section Staged
variable {e : Exchange} {now : Instant} {nothingDue : Prop}

theorem staged_turn {said : List Context} {e' : Exchange} (h : Staged e nothingDue)
    (ht : e.Turn now said e') {nothingDue' : Prop} (hd : nothingDue') : Staged e' nothingDue' := by
  unfold Staged at h
  cases ht with
  | announces hs | sendsFirst hs _ | losesFirst hs _ => simp [hs] at h
  | pauses hs _ _ =>
    simp only [hs] at h
    exact ⟨nofun, h.1, h.2⟩
  | forgoes hs _ => exact ⟨nofun, rfl⟩
  | breaks _ _ _ => trivial
  | isCut hs _ =>
    rcases hs with hs | hs
    · simp only [hs] at h
      exact ⟨h.1, rfl⟩
    · simp only [hs] at h
      exact ⟨h.1, rfl⟩
  | resumes hs _ =>
    simp only [hs] at h
    exact ⟨h.1, h.2.1, h.2.2, hd⟩
  | sendsSecond hs _ =>
    simp only [hs] at h
    obtain ⟨stage, source, drawn, journal, he, hstage⟩ :=
      (e.say e.request.secondContext).decide_spec now
    rw [he]
    rcases hstage with rfl | ⟨deadline, rfl⟩
    · trivial
    · exact ⟨h.1, h.2.1⟩
  | losesSecond hs _ | decides hs _ =>
    simp only [hs] at h
    exact ⟨h.1, rfl⟩
  | concludes _ _ => trivial

theorem staged_hearing {heard : List Reply} {e' : Exchange} (h : Staged e nothingDue)
    (hh : e.Hearing now heard e') : Staged e' nothingDue := by
  have hm := hh.minds
  have hpresent := hh.receiver_ne_absent
  unfold Staged at h ⊢
  rw [hm.stage, hm.requests, hh.keeps.1]
  split at h
  · exact h
  · exact h
  · exact h
  · exact ⟨hpresent, h.2⟩
  · exact ⟨hpresent, h.2⟩
  · exact ⟨hpresent, h.2⟩
  · exact ⟨hpresent, h.2⟩
  · trivial
  · trivial

theorem staged_take {x : Setting} (h : Staged x.exchange nothingDue) (c : Cue)
    (hd : ¬ nothingDue) {nothingDue' : Prop} : Staged (x.take c).exchange nothingDue' := by
  have hroom := hasRoom_take (x := x) (c := c)
  obtain ⟨stream, cancelled, picked, brought, he⟩ := x.take_eq c
  unfold Staged at h ⊢
  rw [he] at hroom ⊢
  dsimp only at hroom ⊢
  split at h
  · exact h
  · exact h
  · exact ⟨h.1, hroom h.2⟩
  · exact ⟨h.1, h.2.1, hroom h.2.2⟩
  · -- the second context goes before anything else
    exact absurd h.2.2.2 hd
  · exact h
  · exact h
  · trivial
  · trivial

theorem Idles.staged {deadline : Instant} (hi : Idles e now deadline) (h : Staged e nothingDue)
    {nothingDue' : Prop} : Staged e nothingDue' := by
  unfold Staged at h ⊢
  rcases hi.waiting with hs | hs
  · simp only [hs] at h ⊢
    exact h
  · simp only [hs] at h ⊢
    exact h

end Staged

/-- **Each way on keeps time.** -/
theorem punctual_advance {q : Play} (h : p.Punctual clock)
    (ho : p.setting.exchange.verdict? = none) (ha : p.Advance clock receiverFirst q) :
    q.Punctual clock := by
  cases ha with
  | @takes t c rest hs ht =>
    have hdue : p.due? ≠ none := by
      unfold due?
      rw [hs]
      simp [ht]
    have hnow : (p.setting.take c).now = p.setting.now := Setting.now_take c
    have horder := h.order
    have hshows := h.shows
    rw [hs] at horder hshows
    refine ⟨Setting.faithful_take h.faithful c, staged_take h.staged c hdue, ?_, ?_, ?_⟩
    · rw [hnow]
      exact horder.tail.2.of_all fun entry hm =>
        horder.all entry (List.mem_cons_of_mem _ hm)
    · rw [hnow]
      exact h.shown
    · exact fun entry hm => hshows entry (List.mem_cons_of_mem _ hm)
  | calls hd ht _ =>
    exact ⟨Setting.faithful_turn h.faithful ht, staged_turn h.staged ht hd, h.order, h.shown,
      h.shows⟩
  | hears _ hh =>
    exact ⟨Setting.faithful_hearing h.faithful hh, staged_hearing h.staged hh, h.order, h.shown,
      h.shows⟩
  | @waits t _ hc hr hn =>
    obtain ⟨deadline, hi⟩ := h.idles ho hc hr
    obtain ⟨hle, hshown⟩ := h.nextMoment hn
    have hnow : p.setting.now.plus (p.setting.now.elapsed t) = t := Instant.plus_elapsed hle
    refine ⟨Setting.faithful_pass h.faithful _, hi.staged h.staged, ?_, ?_, h.shows⟩
    · show InOrder (p.setting.now.plus _) p.script
      rw [hnow]
      have hfirst := (nextMoment_le hn).1
      have horder := h.order
      cases hs : p.script with
      | nil => exact List.pairwise_singleton _ t
      | cons entry rest =>
        rw [hs] at hfirst horder
        refine horder.of_all fun entry' hm => ?_
        have hhead : t ≤ entry.1 := hfirst entry rfl
        rcases List.mem_cons.mp hm with rfl | hm
        · exact hhead
        · exact Nat.le_trans hhead (horder.tail.2.all _ hm)
    · show clock.Shows (p.setting.now.plus _)
      rw [hnow]
      exact hshown

theorem punctual_ofResumed {e : Exchange} {start : Instant} {script : Script} (h : e.Resumed)
    (horder : InOrder start script) (hstart : clock.Shows start)
    (hshows : ∀ entry ∈ script, clock.Shows entry.1) :
    (ofResumed e start script).Punctual clock where
  faithful := Setting.faithful_around h.fresh start
  staged := by
    unfold Staged
    have hs : (ofResumed e start script).setting.exchange.stage = .resuming := h.resuming
    rw [hs]
    exact ⟨h.unstopped, h.accepts.room⟩
  order := horder
  shown := hstart
  shows := hshows

/-- If neither task takes a step there is a moment to wait for. -/
theorem Punctual.nextMoment_of_idle (h : p.Punctual clock)
    (ho : p.setting.exchange.verdict? = none) (hm : p.mover? receiverFirst = none) :
    ∃ t, p.nextMoment? clock = some t := by
  obtain ⟨hc, hr⟩ := mover?_eq_none hm
  obtain ⟨deadline, hi⟩ := h.idles ho hc hr
  have hwakes : p.wakesAt clock ≠ none := by
    unfold wakesAt Exchange.wakesAt
    rcases hi.waiting with hs | hs
    · simp [hs]
    · simp [hs]
  unfold nextMoment?
  split
  · exact ⟨_, rfl⟩
  · exact ⟨_, rfl⟩
  · exact Option.ne_none_iff_exists'.mp hwakes

/-- A punctual play goes on until the exchange has come to its end. -/
theorem Punctual.advances (h : p.Punctual clock) (ho : p.setting.exchange.verdict? = none)
    (receiverFirst : Bool) :
    p.Advance clock receiverFirst (p.next clock receiverFirst) := by
  rcases advance_next ho receiverFirst with ha | ⟨hm, hn⟩
  · exact ha
  · obtain ⟨t, ht⟩ := h.nextMoment_of_idle ho hm
    cases hn.symm.trans ht

end Punctual

/-! ## What happens next -/

section Next
variable {p q : Play} {clock : Clock} {receiverFirst : Bool}

theorem next_of_verdict (h : p.setting.exchange.verdict?.isSome = true) :
    p.next clock receiverFirst = p := if_pos h

theorem next_of_due {c : Cue} {rest : Script} (ho : p.setting.exchange.verdict? = none)
    (hd : p.due? = some (c, rest)) : p.next clock receiverFirst = ⟨p.setting.take c, rest⟩ := by
  unfold next
  rw [if_neg (by simp [ho]), hd]

theorem next_of_mover {m : Move} (ho : p.setting.exchange.verdict? = none) (hd : p.due? = none)
    (hm : p.mover? receiverFirst = some m) :
    p.next clock receiverFirst = { p with setting := p.setting.act m } := by
  unfold next
  rw [if_neg (by simp [ho]), hd]
  dsimp only
  rw [hm]

theorem next_of_wait {t : Instant} (ho : p.setting.exchange.verdict? = none) (hd : p.due? = none)
    (hm : p.mover? receiverFirst = none) (hn : p.nextMoment? clock = some t) :
    p.next clock receiverFirst =
      { p with setting := p.setting.act (.pass (p.setting.now.elapsed t)) } := by
  unfold next
  rw [if_neg (by simp [ho]), hd]
  dsimp only
  rw [hm]
  dsimp only
  rw [hn]

/-- Who moves depends only on who can. -/
theorem mover?_eq (p : Play) (receiverFirst : Bool) : p.mover? receiverFirst =
    match (p.setting.exchange.call p.setting.now).isSome,
      (p.setting.exchange.receive p.setting.now).isSome with
    | false, false => none
    | true, false => some .call
    | false, true => some .receive
    | true, true => some (if receiverFirst then .receive else .call) := by
  unfold mover?
  dsimp only
  split
  · rename_i hc hr
    rw [hc, hr]
    rfl
  · rename_i hc hr
    rw [hc, hr]
    rfl
  · rename_i hc hr
    rw [hc, hr]
    rfl
  · rename_i hc hr
    rw [hc, hr]
    rfl

theorem mover?_congr
    (hc : (q.setting.exchange.call q.setting.now).isSome =
      (p.setting.exchange.call p.setting.now).isSome)
    (hr : (q.setting.exchange.receive q.setting.now).isSome =
      (p.setting.exchange.receive p.setting.now).isSome) :
    q.mover? receiverFirst = p.mover? receiverFirst := by
  rw [mover?_eq, mover?_eq, hc, hr]

/-- A play that goes on keeps time. -/
theorem Punctual.goesOn (h : p.Punctual clock) (receiverFirst : Bool) :
    (p.next clock receiverFirst).Punctual clock := by
  cases ho : p.setting.exchange.verdict? with
  | some v =>
    rw [next_of_verdict (by simp [ho])]
    exact h
  | none => exact punctual_advance h ho (h.advances ho receiverFirst)

theorem Punctual.stays (h : p.Punctual clock) (choices : Nat → Bool) (n : Nat) :
    (p.after clock choices n).Punctual clock := by
  induction n with
  | zero => exact h
  | succ n ih => exact ih.goesOn (choices n)

/-- What has been heard is kept, and time does not go back. -/
theorem grows_advance (ha : p.Advance clock receiverFirst q) :
    p.setting.heard <+: q.setting.heard ∧ p.setting.now ≤ q.setting.now := by
  cases ha with
  | @takes _ c _ _ _ =>
    obtain ⟨_, _, _, _, he⟩ := p.setting.take_eq c
    rw [he]
    exact ⟨List.prefix_refl _, Nat.le_refl _⟩
  | calls _ _ _ => exact ⟨List.prefix_refl _, Nat.le_refl _⟩
  | hears _ _ => exact ⟨List.prefix_append _ _, Nat.le_refl _⟩
  | waits _ _ _ _ => exact ⟨List.prefix_refl _, Nat.le_add_right _ _⟩

theorem grows_next (h : p.Punctual clock) (receiverFirst : Bool) :
    p.setting.heard <+: (p.next clock receiverFirst).setting.heard ∧
      p.setting.now ≤ (p.next clock receiverFirst).setting.now := by
  cases ho : p.setting.exchange.verdict? with
  | some v =>
    rw [next_of_verdict (by simp [ho])]
    exact ⟨List.prefix_refl _, Nat.le_refl _⟩
  | none => exact grows_advance (h.advances ho receiverFirst)

end Next

end Play
end ProgressiveSearch.Exchange
