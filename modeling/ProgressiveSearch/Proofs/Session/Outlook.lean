import ProgressiveSearch.Proofs.Session.Play

/-! # What a session has ahead of it

The occasions of a script are those of a session that is about to begin.  Here they
are told of every moment of a play (`outlook`): what has come already counts as
coming now, and the timer is the one of the phase.

While the session is not over, what is earliest in the outlook never changes,
whatever comes next; and when the session ends, it is what ends it
(`earliest_outlook`).
-/
namespace ProgressiveSearch.Session

/-- What a session waits for, and until when. -/
inductive Awaiting where
  | first (deadline : Instant)
  | second (deadline : Instant)
  | final (deadline : Instant)

/-- Until when. -/
def Awaiting.deadline : Awaiting → Instant
  | .first deadline | .second deadline | .final deadline => deadline

/-- What becomes of a session for which nothing comes until then. -/
def Awaiting.verdict : Awaiting → Verdict
  | .first _ | .second _ => .reported .idleTimeout
  | .final _ => .reported .completed

/-- The timer of a session that awaits its second context: the idle deadline, or
the final moment if the context is read before it. -/
def secondTimer (config : Config) (deadline : Instant) (inbound : List (Instant × Signal)) :
    Option (Instant × Verdict) :=
  match readBy (some deadline) inbound with
  | none => some (deadline, .reported .idleTimeout)
  | some t => (t.after? config.finalDelay).map (·, .reported .completed)

/-- The timer that goes off if nothing else ends the session. -/
def Awaiting.timer (config : Config) (inbound : List (Instant × Signal)) :
    Awaiting → Option (Instant × Verdict)
  | .first deadline =>
    match readBy (some deadline) inbound with
    | none => some (deadline, .reported .idleTimeout)
    | some t => (t.after? config.idleTimeout).bind (secondTimer config · inbound.tail)
  | .second deadline => secondTimer config deadline inbound
  | .final deadline => some (deadline, .reported .completed)

section Timer
variable {config : Config} {deadline t : Instant} {l : List (Instant × Signal)} {w : Awaiting}

/-- A second context that is read starts the wait for the final moment. -/
theorem secondTimer_read (h : readBy (some deadline) l = some t) :
    secondTimer config deadline l = (t.after? config.finalDelay).map (·, .reported .completed) := by
  unfold secondTimer
  rw [h]

/-- A first context that is read starts the wait for the second. -/
theorem timer_first_read (h : readBy (some deadline) l = some t) :
    (Awaiting.first deadline).timer config l =
      (t.after? config.idleTimeout).bind (secondTimer config · l.tail) := by
  unfold Awaiting.timer
  dsimp only
  rw [h]

/-- If no context is read before its deadline a wait lasts until then. -/
theorem timer_unread (h : readBy (some w.deadline) l = none) :
    w.timer config l = some (w.deadline, w.verdict) := by
  cases w with
  | first deadline =>
    unfold Awaiting.timer
    dsimp only [Awaiting.deadline] at h ⊢
    rw [h]
    rfl
  | second deadline =>
    unfold Awaiting.timer secondTimer
    dsimp only [Awaiting.deadline] at h ⊢
    rw [h]
    rfl
  | «final» deadline => rfl

end Timer

/-- What a session waits for as soon as the batch on its way, if there is one, is
delivered; nothing, if the clock cannot name the deadline. -/
def awaiting? (now : Instant) (s : Session) : Option Awaiting :=
  match s.phase, s.activity with
  | .awaitingFirst, .entering => (now.after? s.config.idleTimeout).map .first
  | .awaitingFirst, .selecting => some (.first s.idleDeadline)
  | .awaitingFirst, .delivering d => (d.receivedAt.after? s.config.idleTimeout).map .second
  | .awaitingSecond, .selecting => some (.second s.idleDeadline)
  | .awaitingSecond, .delivering d => (d.receivedAt.after? s.config.finalDelay).map .final
  | .awaitingFinal deadline, .selecting => some (.final deadline)
  | _, _ => none

/-- What a session has ahead of it: when the service stops and the reader goes away,
what comes on the requests, and how many contexts it has read so far. -/
structure Prospect where
  stop : Option Instant
  leave : Option Instant
  inbound : List (Instant × Signal)
  seen : Nat

/-- The occasions ahead of a session that waits for this. -/
def Prospect.occasions (config : Config) (x : Prospect) (w : Awaiting) :
    List (Instant × Verdict) :=
  (x.stop.map (·, .failed .shutdown)).toList ++
  (x.leave.map (·, .failed .peerGone)).toList ++
  (w.timer config x.inbound).toList ++
  (decisive config x.seen x.inbound).toList

namespace Play

variable (p : Play)

/-- What still comes on the requests; what waits there comes now. -/
def toCome : List (Instant × Signal) :=
  if p.scene.session.requestsOpen then
    p.scene.session.stream.requests.queue.map (fun a => (p.scene.now, .arrived a)) ++
      if p.scene.session.stream.requests.senderGone then [(p.scene.now, .halfClosed)]
      else inbound p.script
  else []

/-- When the service stops. -/
def stopMoment : Option Instant :=
  if p.scene.stopping then some p.scene.now else momentOf .stop p.script

/-- When the reader goes away. -/
def leaveMoment : Option Instant :=
  if p.scene.session.stream.replies.receiverGone then some p.scene.now
  else momentOf .leave p.script

/-- What the session of a play has ahead of it. -/
def prospect : Prospect where
  stop := p.stopMoment
  leave := p.leaveMoment
  inbound := p.toCome
  seen := p.scene.history.contexts.length

/-- **The occasions that a session has ahead of it**, at any moment of a play. -/
def outlook : List (Instant × Verdict) :=
  match p.scene.session.phase, p.scene.session.activity with
  | .awaitingFinal _, .delivering _ => [(p.scene.now, .reported .completed)]
  | _, _ =>
    match p.scene.session.awaiting? p.scene.now with
    | none => [(p.scene.now, .brokenDown)]
    | some w => p.prospect.occasions p.scene.session.config w

/-! ## The script goes on -/

section Script
variable {p} {t : Instant} {c : Cue} {rest : Script}

/-- An entry that is due is due now. -/
theorem now_of_due (hc : Chronological p.scene.now p.script) (hs : p.script = (t, c) :: rest)
    (ht : t ≤ p.scene.now) : t = p.scene.now := by
  rw [hs] at hc
  exact Instant.le_antisymm ht hc.1

theorem stopMoment_takes (hs : p.script = (p.scene.now, c) :: rest) :
    stopMoment ⟨p.scene.take c, rest⟩ = p.stopMoment := by
  obtain ⟨_, _, _, he⟩ := p.scene.take_eq c
  have hnow : (p.scene.take c).now = p.scene.now := by rw [he]
  unfold stopMoment
  rw [hs, hnow]
  by_cases hc : c = .stop
  · subst hc
    rw [momentOf_cons_self, ite_self]
    exact if_pos rfl
  · rw [momentOf_cons_ne hc, Scene.stopping_take hc]

theorem leaveMoment_takes (hs : p.script = (p.scene.now, c) :: rest) :
    leaveMoment ⟨p.scene.take c, rest⟩ = p.leaveMoment := by
  obtain ⟨_, _, _, he⟩ := p.scene.take_eq c
  have hnow : (p.scene.take c).now = p.scene.now := by rw [he]
  unfold leaveMoment
  rw [hs, hnow]
  by_cases hc : c = .leave
  · subst hc
    rw [momentOf_cons_self, ite_self]
    exact if_pos rfl
  · rw [momentOf_cons_ne hc, Scene.receiverGone_take hc]

/-- What comes on the requests has come a moment later. -/
theorem toCome_takes (hs : p.script = (p.scene.now, c) :: rest)
    (hg : p.scene.session.stream.requests.receiverGone = false) :
    toCome ⟨p.scene.take c, rest⟩ = p.toCome := by
  obtain ⟨_, _, _, he⟩ := p.scene.take_eq c
  have hnow : (p.scene.take c).now = p.scene.now := by rw [he]
  have hopen : (p.scene.take c).session.requestsOpen = p.scene.session.requestsOpen := by rw [he]
  unfold toCome
  rw [hs, hnow, hopen]
  cases p.scene.session.requestsOpen with
  | false => rfl
  | true =>
    rw [if_pos rfl, if_pos rfl]
    cases c with
    | stop | leave => rfl
    | read =>
      have hsame : (p.scene.take .read).session.stream.requests =
          p.scene.session.stream.requests := by
        simp only [Scene.take]
        split
        · rfl
        · rfl
      rw [hsame]
      rfl
    | halfClose =>
      show p.scene.session.stream.requests.queue.map _ ++ [(p.scene.now, Signal.halfClosed)] = _
      cases p.scene.session.stream.requests.senderGone <;> rfl
    | send a =>
      cases hsender : p.scene.session.stream.requests.senderGone with
      | true =>
        rw [Scene.take_send_closed hsender, hsender]
        rfl
      | false =>
        rw [Scene.requests_take_send hsender hg]
        show (p.scene.session.stream.requests.queue ++ [a]).map _ ++
          (if p.scene.session.stream.requests.senderGone = true then _ else _) = _
        rw [hsender, List.map_append, List.append_assoc]
        rfl

/-- **What the script brings was ahead already.** -/
theorem outlook_takes (hs : p.script = (p.scene.now, c) :: rest)
    (hg : p.scene.session.stream.requests.receiverGone = false) :
    outlook ⟨p.scene.take c, rest⟩ = p.outlook := by
  have hstop := stopMoment_takes hs
  have hleave := leaveMoment_takes hs
  have hcome := toCome_takes hs hg
  obtain ⟨_, _, _, he⟩ := p.scene.take_eq c
  unfold outlook prospect
  rw [hstop, hleave, hcome, he]
  rfl

end Script

/-! ## Time goes on -/

/-- Nothing waits on the requests of an idle session. -/
theorem toCome_of_idles {q : Play} (hi : q.scene.session.arrival? = none) :
    q.toCome = if q.scene.session.requestsOpen then inbound q.script else [] := by
  unfold toCome
  unfold arrival? at hi
  cases hopen : q.scene.session.requestsOpen with
  | false => rfl
  | true =>
    rw [hopen, if_pos rfl] at hi
    cases hq : q.scene.session.stream.requests.queue with
    | cons a rest => simp [hq] at hi
    | nil =>
      cases hs : q.scene.session.stream.requests.senderGone with
      | true => simp [hq, hs] at hi
      | false => rfl

/-- While a session idles its outlook stays the same. -/
theorem outlook_waits {p : Play} (hi : p.scene.session.Idles p.scene.now p.scene.stopping)
    (hc : p.scene.session.phase ≠ .closed) (d : Duration) :
    outlook { p with scene := p.scene.act (.pass d) } = p.outlook := by
  have hstop : ∀ now, stopMoment { p with scene := { p.scene with now } } =
      momentOf .stop p.script := by
    intro now
    simp [stopMoment, hi.serving]
  have hleave : ∀ now, leaveMoment { p with scene := { p.scene with now } } =
      momentOf .leave p.script := by
    intro now
    simp [leaveMoment, hi.read]
  have hcome : ∀ now, toCome { p with scene := { p.scene with now } } =
      if p.scene.session.requestsOpen then inbound p.script else [] := fun now =>
    toCome_of_idles (q := { p with scene := { p.scene with now } }) hi.unanswered
  have hprospect : ∀ now, prospect { p with scene := { p.scene with now } } = p.prospect := by
    intro now
    unfold prospect
    rw [hstop, hleave, hcome, ← hstop p.scene.now, ← hleave p.scene.now, ← hcome p.scene.now]
  have hsame : prospect { p with scene := p.scene.act (.pass d) } = p.prospect := hprospect _
  -- at a select the moment itself is not part of what is ahead
  unfold outlook awaiting?
  rw [hsame, show p.scene.act (.pass d) = { p.scene with now := p.scene.now.plus d } from rfl]
  dsimp only
  rw [hi.selecting]
  cases hp : p.scene.session.phase with
  | closed => exact absurd hp hc
  | _ => rfl

/-! ## What is ahead is not behind -/

section Bounds
variable {p : Play} {config : Config} {now : Instant} {l : List (Instant × Signal)}

/-- A context that is read is next on the requests, and in time. -/
theorem readBy_eq_some {deadline t : Instant} (h : readBy (some deadline) l = some t) :
    t < deadline ∧ ∃ c rest, l = (t, .arrived (.context c)) :: rest := by
  unfold readBy at h
  split at h
  · rename_i t' c rest
    split at h
    · rename_i hlt
      obtain rfl := Option.some.inj h
      exact ⟨by simpa using hlt, c, rest, rfl⟩
    · cases h
  · cases h

theorem momentOf_mem {c : Cue} {script : Script} {t : Instant} (h : momentOf c script = some t) :
    (t, c) ∈ script := by
  unfold momentOf at h
  obtain ⟨⟨t', c'⟩, hf, rfl⟩ := Option.map_eq_some_iff.mp h
  obtain rfl : c' = c := by simpa using List.find?_some hf
  exact List.mem_of_find?_eq_some hf

theorem mem_of_mem_inbound {script : Script} {t : Instant} {g : Signal}
    (h : (t, g) ∈ inbound script) : ∃ c, (t, c) ∈ script := by
  induction script with
  | nil => cases h
  | cons entry rest ih =>
    obtain ⟨t', c⟩ := entry
    cases c with
    | halfClose =>
      obtain ⟨rfl, -⟩ : t = t' ∧ g = .halfClosed := by simpa [inbound] using h
      exact ⟨_, List.mem_cons_self⟩
    | send a =>
      rcases List.mem_cons.mp h with he | hm
      · obtain ⟨rfl, -⟩ := Prod.mk.inj he
        exact ⟨_, List.mem_cons_self⟩
      · obtain ⟨c, hc⟩ := ih hm
        exact ⟨c, List.mem_cons_of_mem _ hc⟩
    | stop | read | leave =>
      obtain ⟨c, hc⟩ := ih h
      exact ⟨c, List.mem_cons_of_mem _ hc⟩

theorem decisive_mem {n : Nat} {x : Instant × Verdict} (h : decisive config n l = some x) :
    ∃ g, (x.1, g) ∈ l := by
  induction l generalizing n with
  | nil => cases h
  | cons entry rest ih =>
    obtain ⟨t, g⟩ := entry
    unfold decisive at h
    split at h
    · obtain rfl := Option.some.inj h
      exact ⟨g, List.mem_cons_self⟩
    · obtain ⟨g', hg⟩ := ih h
      exact ⟨g', List.mem_cons_of_mem _ hg⟩

/-- What is left of a script whose next entry is not due comes later. -/
theorem now_lt_script (hc : Chronological p.scene.now p.script) (hd : p.due? = none) :
    ∀ entry ∈ p.script, p.scene.now < entry.1 := by
  unfold due? at hd
  cases hs : p.script with
  | nil => simp
  | cons first rest =>
    rw [hs] at hc hd
    intro entry hm
    have hfirst : p.scene.now < first.1 := by
      by_cases hle : first.1 ≤ p.scene.now
      · simp [hle] at hd
      · exact Nat.lt_of_not_le hle
    rcases List.mem_cons.mp hm with rfl | hm
    · exact hfirst
    · exact Nat.lt_of_lt_of_le hfirst (hc.2.all entry hm)

theorem now_le_toCome (hc : Chronological p.scene.now p.script) :
    ∀ y ∈ p.toCome, p.scene.now ≤ y.1 := by
  intro y hy
  unfold toCome at hy
  split at hy
  · rcases List.mem_append.mp hy with hq | hs
    · obtain ⟨a, -, rfl⟩ := List.mem_map.mp hq
      exact Nat.le_refl _
    · split at hs
      · rw [List.mem_singleton.mp hs]
        exact Nat.le_refl _
      · obtain ⟨c, hm⟩ := mem_of_mem_inbound hs
        exact hc.all _ hm
  · cases hy

theorem now_le_readBy {deadline : Instant} (hl : ∀ y ∈ l, now ≤ y.1) :
    ∀ t ∈ readBy (some deadline) l, now ≤ t := by
  intro t ht
  obtain ⟨-, c, rest, rfl⟩ := readBy_eq_some ht
  exact hl _ List.mem_cons_self

theorem now_le_secondTimer {deadline : Instant} (hw : now ≤ deadline)
    (hl : ∀ y ∈ l, now ≤ y.1) : ∀ y ∈ secondTimer config deadline l, now ≤ y.1 := by
  intro y hy
  unfold secondTimer at hy
  split at hy
  · obtain rfl := Option.some.inj hy
    exact hw
  · rename_i t ht
    obtain ⟨u, hu, rfl⟩ := Option.map_eq_some_iff.mp hy
    exact Nat.le_trans (now_le_readBy hl t ht) (Instant.le_after? hu)

/-- No timer goes off in the past. -/
theorem now_le_timer {w : Awaiting} (hw : now ≤ w.deadline) (hl : ∀ y ∈ l, now ≤ y.1) :
    ∀ y ∈ w.timer config l, now ≤ y.1 := by
  intro y hy
  cases w with
  | second deadline => exact now_le_secondTimer hw hl y hy
  | final deadline =>
    obtain rfl := Option.some.inj hy
    exact hw
  | first deadline =>
    unfold Awaiting.timer at hy
    dsimp only at hy
    split at hy
    · obtain rfl := Option.some.inj hy
      exact hw
    · rename_i t ht
      -- the first context is read at `t`, and the second is awaited from then on
      obtain ⟨deadline', hd, hy⟩ := Option.bind_eq_some_iff.mp hy
      exact now_le_secondTimer (Nat.le_trans (now_le_readBy hl t ht) (Instant.le_after? hd))
        (fun z hz => hl z (List.mem_of_mem_tail hz)) y hy

/-- Neither the service nor the reader ends a session that attends before its script
goes on. -/
theorem now_lt_moments (hc : Chronological p.scene.now p.script) (hd : p.due? = none)
    (ha : p.scene.session.Attends p.scene.stopping) :
    (∀ t ∈ p.stopMoment, p.scene.now < t) ∧ ∀ t ∈ p.leaveMoment, p.scene.now < t := by
  have hscript := now_lt_script hc hd
  unfold stopMoment leaveMoment
  rw [ha.serving, ha.read]
  exact ⟨fun t ht => hscript _ (momentOf_mem ht), fun t ht => hscript _ (momentOf_mem ht)⟩

theorem now_lt_timer {w : Awaiting} {v : Verdict} (hlt : now < w.deadline)
    (ht : w.timer config l = some (w.deadline, v)) : ∀ y ∈ w.timer config l, now < y.1 := by
  rw [ht]
  simpa using hlt

/-- Nothing that is ahead is in the past. -/
structure Ahead (config : Config) (now : Instant) (x : Prospect) (w : Awaiting) : Prop where
  stop : ∀ t ∈ x.stop, now ≤ t
  leave : ∀ t ∈ x.leave, now ≤ t
  timer : ∀ y ∈ w.timer config x.inbound, now ≤ y.1
  inbound : ∀ y ∈ x.inbound, now ≤ y.1

variable {x : Prospect} {w : Awaiting} {v : Verdict}

theorem Ahead.of_timer (ha : Ahead config now x w) :
    ∀ y ∈ (w.timer config x.inbound).toList ++ (decisive config x.seen x.inbound).toList,
      now ≤ y.1 := by
  intro y hy
  rcases List.mem_append.mp hy with hy | hy
  · exact ha.timer y (by simpa using hy)
  · obtain ⟨g, hg⟩ := decisive_mem (Option.mem_toList.mp hy)
    exact ha.inbound _ hg

theorem Ahead.of_leave (ha : Ahead config now x w) :
    ∀ y ∈ (x.leave.map (·, Verdict.failed .peerGone)).toList ++
      ((w.timer config x.inbound).toList ++ (decisive config x.seen x.inbound).toList),
        now ≤ y.1 := by
  intro y hy
  rcases List.mem_append.mp hy with hy | hy
  · obtain ⟨t, hmem, rfl⟩ := by simpa using hy
    exact ha.leave t hmem
  · exact ha.of_timer y hy

/-- A service that stops now decides. -/
theorem Ahead.earliest_stop (ha : Ahead config now x w) (hs : x.stop = some now) :
    earliest (x.occasions config w) = some (now, .failed .shutdown) := by
  unfold Prospect.occasions
  rw [hs, List.append_assoc, List.append_assoc]
  exact @earliest_of _ [] _ _ nofun ha.of_leave

/-- So does a reader that goes away now, if the service goes on. -/
theorem Ahead.earliest_leave (ha : Ahead config now x w) (hs : ∀ t ∈ x.stop, now < t)
    (hl : x.leave = some now) :
    earliest (x.occasions config w) = some (now, .failed .peerGone) := by
  unfold Prospect.occasions
  rw [hl, List.append_assoc, List.append_assoc]
  refine earliest_of (fun y hy => ?_) ha.of_timer
  obtain ⟨t, hmem, rfl⟩ := by simpa using hy
  exact hs t hmem

/-- So does a timer that goes off now, if the service and the reader stay. -/
theorem Ahead.earliest_timer (ha : Ahead config now x w) (hs : ∀ t ∈ x.stop, now < t)
    (hl : ∀ t ∈ x.leave, now < t) (ht : w.timer config x.inbound = some (now, v)) :
    earliest (x.occasions config w) = some (now, v) := by
  have hlater := ha.of_timer
  unfold Prospect.occasions
  rw [List.append_assoc]
  rw [ht] at hlater ⊢
  refine earliest_of (fun y hy => ?_) fun y hy => hlater y (List.mem_cons_of_mem _ hy)
  rcases List.mem_append.mp hy with hy | hy
  · obtain ⟨t, hmem, rfl⟩ := by simpa using hy
    exact hs t hmem
  · obtain ⟨t, hmem, rfl⟩ := by simpa using hy
    exact hl t hmem

/-- What comes on the requests now decides if nothing else does. -/
theorem earliest_decisive (hs : ∀ t ∈ x.stop, now < t) (hl : ∀ t ∈ x.leave, now < t)
    (ht : ∀ y ∈ w.timer config x.inbound, now < y.1)
    (hd : decisive config x.seen x.inbound = some (now, v)) :
    earliest (x.occasions config w) = some (now, v) := by
  unfold Prospect.occasions
  rw [hd]
  refine earliest_of (fun y hy => ?_) nofun
  rcases List.mem_append.mp hy with hy | hy
  · rcases List.mem_append.mp hy with hy | hy
    · obtain ⟨t, hmem, rfl⟩ := by simpa using hy
      exact hs t hmem
    · obtain ⟨t, hmem, rfl⟩ := by simpa using hy
      exact hl t hmem
  · exact ht y (by simpa using hy)

end Bounds

/-! ## The session takes a step -/

section Steps
variable {p : Play}

/-- What a session at its select waits for, and how many contexts it has read. -/
inductive Waits (p : Play) : Awaiting → Prop
  | first (hp : p.scene.session.phase = .awaitingFirst)
      (hseen : p.scene.history.contexts.length = 0) :
      Waits p (.first p.scene.session.idleDeadline)
  | second (hp : p.scene.session.phase = .awaitingSecond)
      (hseen : p.scene.history.contexts.length = 1) :
      Waits p (.second p.scene.session.idleDeadline)
  | final {deadline : Instant} (hp : p.scene.session.phase = .awaitingFinal deadline)
      (hseen : 2 ≤ p.scene.history.contexts.length) : Waits p (.final deadline)

theorem Prompt.waits (h : p.Prompt) (hs : p.scene.session.activity = .selecting) :
    ∃ w, p.Waits w ∧ p.outlook = p.prospect.occasions p.scene.session.config w := by
  have htold := h.told
  unfold Told at htold
  unfold outlook awaiting?
  rw [hs] at htold ⊢
  cases hp : p.scene.session.phase with
  | awaitingFirst =>
    simp only [hp] at htold
    exact ⟨_, .first hp (by simp [htold.contexts]), rfl⟩
  | awaitingSecond =>
    simp only [hp] at htold
    obtain ⟨t, c, hi⟩ := htold
    exact ⟨_, .second hp (by simp [hi.contexts]), rfl⟩
  | awaitingFinal deadline =>
    simp only [hp] at htold
    obtain ⟨t, c, t', c', rest, hi, -⟩ := htold
    exact ⟨_, .final hp (by simp [hi.contexts]), rfl⟩
  | closed => simp [hp] at htold

/-- The deadline of a wait is the moment at which the session wakes. -/
theorem Waits.wakes {w : Awaiting} (hw : p.Waits w) (hs : p.scene.session.activity = .selecting) :
    p.scene.session.wakesAt = some w.deadline := by
  unfold wakesAt
  cases hw with
  | first hp _ | second hp _ | final hp _ => rw [hs, hp]; rfl

/-- A session that looks at its requests still has time to its deadline. -/
theorem Waits.now_lt_deadline {w : Awaiting} (hw : p.Waits w)
    (hl : p.scene.session.Listens p.scene.now p.scene.stopping) : p.scene.now < w.deadline := by
  have ht := hl.untimed
  unfold timer? at ht
  cases hw with
  | first hp _ | second hp _ | final hp _ =>
    simp only [hp] at ht
    split at ht
    · cases ht
    · rename_i hnot
      exact Nat.lt_of_not_le hnot

theorem Prompt.ahead {w : Awaiting} (h : p.Prompt) (hw : p.Waits w)
    (hs : p.scene.session.activity = .selecting) :
    Ahead p.scene.session.config p.scene.now p.prospect w where
  stop t ht := by
    change t ∈ p.stopMoment at ht
    unfold stopMoment at ht
    split at ht
    · obtain rfl := Option.some.inj ht
      exact Nat.le_refl _
    · exact h.chronological.all _ (momentOf_mem ht)
  leave t ht := by
    change t ∈ p.leaveMoment at ht
    unfold leaveMoment at ht
    split at ht
    · obtain rfl := Option.some.inj ht
      exact Nat.le_refl _
    · exact h.chronological.all _ (momentOf_mem ht)
  timer := now_le_timer (h.pace.wake _ (hw.wakes hs)) (now_le_toCome h.chronological)
  inbound := now_le_toCome h.chronological

/-! ### Contexts -/

section Reading
variable {config : Config} {now deadline deadline' : Instant} {c : Context} {g : Signal}
  {more : List (Instant × Signal)} {x : Prospect}

/-- What is passed over does not change the final moment. -/
theorem occasions_passed_over (hin : x.inbound = (now, g) :: more)
    (hj : judge config now x.seen g = none) :
    x.occasions config (.final deadline) =
      Prospect.occasions config { x with inbound := more, seen := x.seen + 1 }
        (.final deadline) := by
  unfold Prospect.occasions
  rw [hin, decisive_cons_none hj]
  rfl

/-- A first context that comes in time was counted on. -/
theorem occasions_first (hin : x.inbound = (now, .arrived (.context c)) :: more)
    (hseen : x.seen = 0) (hlt : now < deadline)
    (hd : now.after? config.idleTimeout = some deadline') :
    x.occasions config (.first deadline) =
      Prospect.occasions config { x with inbound := more, seen := x.seen + 1 }
        (.second deadline') := by
  have htimer : (Awaiting.first deadline).timer config x.inbound =
      (Awaiting.second deadline').timer config more := by
    simp [hin, Awaiting.timer, readBy, hlt, hd]
  have hdecisive : decisive config x.seen x.inbound = decisive config (x.seen + 1) more := by
    rw [hin, hseen]
    exact decisive_cons_none (by simp [judge_first, hd])
  unfold Prospect.occasions
  rw [htimer, hdecisive]

/-- A second context that comes in time was counted on. -/
theorem occasions_second (hin : x.inbound = (now, .arrived (.context c)) :: more)
    (hseen : x.seen = 1) (hlt : now < deadline)
    (hd : now.after? config.finalDelay = some deadline') :
    x.occasions config (.second deadline) =
      Prospect.occasions config { x with inbound := more, seen := x.seen + 1 }
        (.final deadline') := by
  have htimer : (Awaiting.second deadline).timer config x.inbound =
      (Awaiting.final deadline').timer config more := by
    simp [hin, Awaiting.timer, secondTimer, readBy, hlt, hd]
  have hdecisive : decisive config x.seen x.inbound = decisive config (x.seen + 1) more := by
    rw [hin, hseen]
    exact decisive_cons_none (by simp [judge_second, hd])
  unfold Prospect.occasions
  rw [htimer, hdecisive]

end Reading

/-- The oldest arrival is what comes first. -/
theorem toCome_cons {a : Arrival} {rest : List Arrival}
    (ho : p.scene.session.requestsOpen = true)
    (hq : p.scene.session.stream.requests.queue = a :: rest) :
    p.toCome = (p.scene.now, .arrived a) ::
      (rest.map (fun a => (p.scene.now, .arrived a)) ++
        if p.scene.session.stream.requests.senderGone then [(p.scene.now, .halfClosed)]
        else inbound p.script) := by
  unfold toCome
  rw [if_pos ho, hq]
  rfl

/-- A half-close is all that comes once the client is gone and its arrivals are read. -/
theorem toCome_halfClosed (ho : p.scene.session.requestsOpen = true)
    (hq : p.scene.session.stream.requests.queue = [])
    (hg : p.scene.session.stream.requests.senderGone = true) :
    p.toCome = [(p.scene.now, .halfClosed)] := by
  unfold toCome
  rw [if_pos ho, hq, if_pos hg]
  rfl

/-- What a session finds on its requests decides if it is judged to. -/
theorem Prompt.earliest_judged {g : Signal} {v : Verdict} {more : List (Instant × Signal)}
    (h : p.Prompt) (hd : p.due? = none)
    (hl : p.scene.session.Listens p.scene.now p.scene.stopping)
    (hin : p.prospect.inbound = (p.scene.now, g) :: more)
    (hj : judge p.scene.session.config p.scene.now p.prospect.seen g = some v) :
    earliest p.outlook = some (p.scene.now, v) := by
  obtain ⟨w, hw, houtlook⟩ := h.waits hl.selecting
  obtain ⟨hstop, hleave⟩ := now_lt_moments h.chronological hd hl.toAttends
  have hlt := hw.now_lt_deadline hl
  rw [houtlook]
  refine earliest_decisive hstop hleave ?_ (by rw [hin]; exact decisive_cons_some hj)
  cases hr : readBy (some w.deadline) p.prospect.inbound with
  | none => exact now_lt_timer hlt (timer_unread hr)
  | some t =>
    -- a context that decides although it is the first or the second starts no timer
    obtain ⟨-, c, rest, hcontext⟩ := readBy_eq_some hr
    obtain ⟨hentry, rfl⟩ := List.cons.inj (hin.symm.trans hcontext)
    obtain ⟨rfl, rfl⟩ := Prod.mk.inj hentry
    cases hw with
    | first _ hseen =>
      rw [show p.prospect.seen = 0 from hseen, judge_first] at hj
      split at hj
      · rename_i hunnamed
        dsimp only [Awaiting.deadline] at hr
        rw [timer_first_read hr, hunnamed]
        nofun
      · cases hj
    | second _ hseen =>
      rw [show p.prospect.seen = 1 from hseen, judge_second] at hj
      split at hj
      · rename_i hunnamed
        dsimp only [Awaiting.deadline] at hr
        show ∀ y ∈ secondTimer _ _ _, _
        rw [secondTimer_read hr, hunnamed]
        nofun
      · cases hj
    | «final» _ _ => exact now_lt_timer hlt rfl

/-- When a session has read a context and goes on, what came after it is ahead. -/
theorem prospect_read {e : Deeds} {s : Session} {c : Context}
    (ht : p.scene.session.Transition p.scene.now p.scene.stopping e s) (hreads : e.reads = [c])
    (ho : ∀ r, s.activity ≠ .over r) :
    ∃ more, p.prospect.inbound = (p.scene.now, .arrived (.context c)) :: more ∧
      prospect { p with scene := p.scene.after e s } =
        { p.prospect with inbound := more, seen := p.prospect.seen + 1 } := by
  cases ht with
  | answers hl hq _ | ignores hl hq _ _ =>
    obtain rfl := List.singleton_inj.mp hreads
    refine ⟨_, toCome_cons hl.isOpen hq, ?_⟩
    simp only [prospect, stopMoment, leaveMoment, toCome, Scene.after, hl.isOpen,
      History.contexts_add, List.length_append]
    rfl
  | ends _ hl => exact absurd hl.activity (ho _)
  | _ => cases hreads

/-- **A step that does not end the session changes nothing about what is earliest.** -/
theorem outlook_steps {e : Deeds} {s : Session} (h : p.Prompt) (hd : p.due? = none)
    (ht : p.scene.session.Transition p.scene.now p.scene.stopping e s)
    (ho : ∀ r, s.activity ≠ .over r) :
    earliest (outlook { p with scene := p.scene.after e s }) = earliest p.outlook := by
  have ht' := ht
  cases ht with
  | begins he hdl =>
    have hphase := (told_entering h.told he).1
    refine congrArg earliest ?_
    simp only [outlook, awaiting?, prospect, Scene.after, hphase, he, hdl, History.add_none]
    rfl
  | answers hl hq hp =>
    obtain ⟨w, hw, houtlook⟩ := h.waits hl.selecting
    obtain ⟨hstop, hleave⟩ := now_lt_moments h.chronological hd hl.toAttends
    obtain ⟨more, hin, hprospect⟩ := prospect_read ht' rfl ho
    have hlt := hw.now_lt_deadline hl
    rw [houtlook, outlook, hprospect]
    simp only [awaiting?, Scene.after]
    -- the new wait starts now; if the clock cannot name its end, the context decides
    cases hw with
    | first hphase hseen =>
      simp only [hphase]
      cases hdl : p.scene.now.after? p.scene.session.config.idleTimeout with
      | none =>
        have hends := h.earliest_judged hd hl hin (hseen.symm ▸ judge_first.trans (if_pos hdl))
        rw [houtlook] at hends
        exact hends.symm
      | some deadline => exact congrArg earliest (occasions_first hin hseen hlt hdl).symm
    | second hphase hseen =>
      simp only [hphase]
      cases hdl : p.scene.now.after? p.scene.session.config.finalDelay with
      | none =>
        have hends := h.earliest_judged hd hl hin (hseen.symm ▸ judge_second.trans (if_pos hdl))
        rw [houtlook] at hends
        exact hends.symm
      | some deadline => exact congrArg earliest (occasions_second hin hseen hlt hdl).symm
    | final hphase _ => simp [hphase, Phase.awaitsContext] at hp
  | defers ha hp hdl hc =>
    obtain ⟨w, hw, houtlook⟩ := h.waits ha.selecting
    obtain ⟨hstop, hleave⟩ := now_lt_moments h.chronological hd ha
    have hahead := h.ahead hw ha.selecting
    have hwakes := hw.wakes ha.selecting
    cases hw with
    | first hphase _ | second hphase _ => cases hp.symm.trans hphase
    | «final» hphase _ =>
      -- no deadline has passed, so the final moment is now
      obtain rfl := Phase.awaitingFinal.inj (hp.symm.trans hphase)
      obtain rfl := Instant.le_antisymm hdl (h.pace.wake _ hwakes)
      rw [houtlook, hahead.earliest_timer hstop hleave rfl]
      simp only [outlook, Scene.after, hp]
      rfl
  | ignores hl hq hp hs =>
    obtain ⟨w, hw, houtlook⟩ := h.waits hl.selecting
    obtain ⟨more, hin, hprospect⟩ := prospect_read ht' rfl ho
    cases hw with
    | first hphase _ | second hphase _ => simp [hphase, Phase.awaitsContext] at hp
    | «final» hphase hseen =>
      rw [houtlook, occasions_passed_over hin (judge_lenient hseen hs), outlook, hprospect]
      simp only [awaiting?, Scene.after, hphase, hl.selecting]
  | halfCloses hl hq hg hp =>
    obtain ⟨w, hw, houtlook⟩ := h.waits hl.selecting
    have hcome := toCome_halfClosed hl.isOpen hq hg
    cases hw with
    | first hphase _ | second hphase _ => simp [hphase, Phase.awaitsContext] at hp
    | «final» hphase hseen =>
      have hin : p.prospect.inbound = (p.scene.now, .halfClosed) :: [] := hcome
      rw [houtlook, occasions_passed_over hin (if_neg (Nat.not_lt.mpr hseen))]
      simp only [outlook, awaiting?, prospect, Scene.after, hphase, hl.selecting, History.add_none]
      rfl
  | deliversFirst hdel hp hdl =>
    refine congrArg earliest ?_
    simp only [outlook, awaiting?, prospect, Scene.after, hp, hdel.delivering, hdl,
      History.contexts_add, List.append_nil]
    rfl
  | deliversSecond hdel hp hdl =>
    refine congrArg earliest ?_
    simp only [outlook, awaiting?, prospect, Scene.after, hp, hdel.delivering, hdl,
      History.contexts_add, List.append_nil]
    rfl
  | ends _ hl => exact absurd hl.activity (ho _)

/-- **A session that ends does so at what is earliest**, and as that says. -/
theorem outlook_ends {e : Deeds} {r : Result} (h : p.Prompt) (hd : p.due? = none)
    (he : p.scene.session.Exit p.scene.now p.scene.stopping e r) :
    earliest p.outlook = some (p.scene.now, r.verdict) := by
  cases he with
  | breaksAtStart he hdl =>
    have hphase := (told_entering h.told he).1
    simp only [outlook, awaiting?, hphase, he, hdl]
    rfl
  | stops hs hstop =>
    obtain ⟨w, hw, houtlook⟩ := h.waits hs
    rw [houtlook]
    exact (h.ahead hw hs).earliest_stop (if_pos hstop)
  | deserted hs hstop hgone =>
    obtain ⟨w, hw, houtlook⟩ := h.waits hs
    have hlater : ∀ t ∈ p.stopMoment, p.scene.now < t := by
      unfold stopMoment
      rw [hstop]
      exact fun t ht => now_lt_script h.chronological hd _ (momentOf_mem ht)
    rw [houtlook]
    exact (h.ahead hw hs).earliest_leave hlater (if_pos hgone)
  | unarmed ha hp _ hc =>
    -- a session that awaits its final moment holds on to the second context
    obtain ⟨_, _, _, _, _, -, hlast, -⟩ :=
      told_final h.told ha.selecting (by rw [hp]; rfl)
    cases hlast.symm.trans hc
  | idles ha hp hdl =>
    obtain ⟨w, hw, houtlook⟩ := h.waits ha.selecting
    obtain ⟨hstop, hleave⟩ := now_lt_moments h.chronological hd ha
    have hahead := h.ahead hw ha.selecting
    have hwakes := hw.wakes ha.selecting
    -- nothing comes before now, so nothing is read before the deadline
    have hunread : readBy (some p.scene.now) p.prospect.inbound = none := by
      cases hr : readBy (some p.scene.now) p.prospect.inbound with
      | none => rfl
      | some t =>
        exact absurd (readBy_eq_some hr).1
          (Nat.not_lt.mpr (now_le_readBy hahead.inbound t hr))
    have hnow := Instant.le_antisymm (h.pace.wake _ hwakes)
      (by cases hw with
        | first _ _ | second _ _ => exact hdl
        | «final» hphase _ => simp [hphase, Phase.awaitsContext] at hp)
    rw [houtlook]
    refine hahead.earliest_timer hstop hleave ?_
    rw [timer_unread (hnow ▸ hunread), ← hnow]
    cases hw with
    | first _ _ | second _ _ => rfl
    | «final» hphase _ => simp [hphase, Phase.awaitsContext] at hp
  | rejects hl hq hp hs =>
    obtain ⟨w, hw, -⟩ := h.waits hl.selecting
    cases hw with
    | first hphase _ | second hphase _ => simp [hphase, Phase.awaitsContext] at hp
    | «final» _ hseen =>
      -- what the session has counted and what it has read have the same successor
      have hnumber : Word.next32 p.scene.session.tally.requestsSeen =
          Word.next32 p.scene.history.contexts.length :=
        (congrArg Word.next32 (h.counted (by simp [hl.selecting]))).trans (Word.next32_mod _)
      rw [hnumber]
      exact h.earliest_judged hd hl (toCome_cons hl.isOpen hq) (judge_strict hseen hs)
  | breaks hl hq => exact h.earliest_judged hd hl (toCome_cons hl.isOpen hq) rfl
  | closesEarly hl hq hg hp =>
    obtain ⟨w, hw, -⟩ := h.waits hl.selecting
    have hearly : p.scene.history.contexts.length < 2 := by
      cases hw with
      | first _ hseen | second _ hseen => simp [hseen]
      | «final» hphase _ => simp [hphase, Phase.awaitsContext] at hp
    exact h.earliest_judged hd hl (toCome_halfClosed hl.isOpen hq hg) (if_pos hearly)
  | loses hdel hgone =>
    -- the reader was there when the batch was ranked, and nothing has happened since
    have hread := (h.pace.delivery _ hdel).2.2.1
    cases hread.symm.trans hgone
  | unnameable hdel hdl =>
    have hnow := (h.pace.delivery _ hdel.delivering).1
    rcases hdl with ⟨hphase, hdl⟩ | ⟨hphase, hdl⟩
    · simp only [outlook, awaiting?, hphase, hdel.delivering, hdl]
      rfl
    · simp only [outlook, awaiting?, hphase, hdel.delivering, hdl]
      rfl
  | completes hdel hp =>
    -- the batch on its way is the deferred revision
    have htold := h.told
    unfold Told at htold
    cases hphase : p.scene.session.phase with
    | awaitingFirst | awaitingSecond => simp [hphase, Phase.awaitsContext] at hp
    | closed => simp [hphase, hdel.delivering] at htold
    | awaitingFinal _ =>
      simp only [outlook, hphase, hdel.delivering]
      rfl

/-- **Whatever comes next, what is earliest stays so until the session ends at it.** -/
theorem earliest_outlook {q : Play} (h : p.Prompt) (ha : p.Advance q) :
    (∀ r, q.scene.session.activity = .over r →
      earliest p.outlook = some (q.scene.now, r.verdict)) ∧
    ((∀ r, q.scene.session.activity ≠ .over r) → earliest q.outlook = earliest p.outlook) := by
  cases ha with
  | @takes t c rest ho hs ht =>
    obtain ⟨sent, hfed⟩ := h.fed
    -- no entry is ever late, so this one comes at the moment that was ahead
    obtain rfl := now_of_due h.chronological hs ht
    obtain ⟨_, _, _, he⟩ := p.scene.take_eq c
    refine ⟨fun r hr => absurd ?_ (ho r), fun _ => ?_⟩
    · rw [he] at hr
      exact hr
    · exact congrArg earliest (outlook_takes hs (hfed.held ho))
  | steps hd ht _ =>
    refine ⟨fun r hr => ?_, outlook_steps h hd ht⟩
    cases ht with
    | ends he hl =>
      obtain rfl := Activity.over.inj (hl.activity.symm.trans hr)
      exact outlook_ends h hd he
    | answers _ _ _ | defers _ _ _ _ | begins _ _ | deliversFirst _ _ _ | deliversSecond _ _ _ =>
      cases hr
    | ignores hl _ _ _ | halfCloses hl _ _ _ => cases hl.selecting.symm.trans hr
  | waits ho hd hs _ =>
    -- a prompt session waits only at its select, with nothing there
    have hi := h.idles ho hs
    obtain ⟨w, hw, -⟩ := h.waits hi.selecting
    have hopen : p.scene.session.phase ≠ .closed := by
      cases hw with
      | first hp _ | second hp _ | «final» hp _ => simp [hp]
    exact ⟨fun r hr => absurd hr (ho r), fun _ => congrArg earliest (outlook_waits hi hopen _)⟩

end Steps

end Play
end ProgressiveSearch.Session
