import ProgressiveSearch.Proofs.Call.Play
import ProgressiveSearch.Proofs.Exchange.Ending

/-! # The course of a call

A call that loses no time keeps to a schedule (`Sound`).  Its far end is waited for
until the moment of giving up, its second context goes out no later than that and
the end of the context delay, and its decision falls one timeout later; the clock may
be late each time it wakes the caller.

Neither context waits for room: the requests have room for both from the start, and
whatever the far end does it takes no room away.  A call that was given up has seen
that before time goes on.
-/
namespace ProgressiveSearch

namespace Instant

/-- The later of two moments. -/
def later (t u : Instant) : Instant := if t ≤ u then u else t

end Instant

namespace Call

/-- What the timing of a call depends on. -/
structure Terms where
  start : Instant
  connectTimeout : Duration
  contextDelay : Duration
  /-- The decision timeout that will be drawn. -/
  timeout : Option Duration

namespace Terms

variable (terms : Terms) (late : Duration)

/-- When the far end is waited for no longer. -/
def giveUp : Instant := terms.start.giveUpAfter terms.connectTimeout

/-- When the second context goes out at the latest, by a clock that is never late. -/
def refining : Instant := terms.giveUp.later (terms.start.plus terms.contextDelay)

/-- When the decision falls at the latest, if the clock was late before. -/
def deciding : Instant := (terms.refining.plus late).plus (terms.timeout.getD .zero)

/-- An exchange that has not drawn its timeout is timed by these terms. -/
structure Fits (e : Exchange) : Prop where
  delay : e.params.contextDelay = terms.contextDelay
  timeout : e.timeout? = terms.timeout
  sent : ∀ t ∈ e.firstSent, t = terms.start

/-- **Where an exchange stands at `now` at the latest.** -/
def Times (e : Exchange) (now : Instant) : Prop :=
  match e.stage with
  | .starting | .offeringFirst => False
  | .resuming => terms.Fits e ∧ e.receiver = .absent ∧ now ≤ terms.refining.plus late
  | .pausing deadline =>
    terms.Fits e ∧ deadline ≤ terms.refining ∧ now ≤ terms.refining.plus late
  | .offeringSecond => terms.Fits e ∧ now ≤ terms.refining.plus late
  | .deciding deadline =>
    deadline ≤ terms.deciding late ∧ now ≤ (terms.deciding late).plus late
  | .releasing _ | .over _ | .brokenDown => now ≤ (terms.deciding late).plus late

end Terms

/-- **Why a call ends whose stream is not open.** -/
inductive Closing (terms : Terms) (c : Call) (now : Instant) : Result → Prop
  | cancelled (hc : c.exchange.cancelled = true) :
      Closing terms c now (.outcome .cancelledBeforeOpen)
  | refused {status : Status} (hc : c.exchange.cancelled = false)
      (hr : c.reception = some (.refused status)) :
      Closing terms c now (.failed (.streamOpen status))
  | expired (hc : c.exchange.cancelled = false) (hr : c.reception = none)
      (hg : terms.giveUp ≤ now) :
      Closing terms c now (.failed (.streamOpen (notOpened terms.connectTimeout)))

/-- An exchange that has not begun, with room for two contexts. -/
structure Unbegun (e : Exchange) : Prop where
  starting : e.stage = .starting
  absent : e.receiver = .absent
  unstopped : e.stopping = false
  room : e.stream.requests.queue.length + 2 ≤ e.stream.requests.capacity

/-- **Where a call stands** at `now` at the latest. -/
def Stands (terms : Terms) (late : Duration) (c : Call) (now : Instant) : Prop :=
  match c.stage with
  | .prepared => False
  | .starting => now = terms.start ∧ Unbegun c.exchange ∧ terms.Fits c.exchange
  | .opening giveUp => giveUp = terms.giveUp ∧ c.exchange.stage = .resuming ∧
    Exchange.Play.Staged c.exchange True ∧ terms.Times late c.exchange now
  | .exchanging => c.reception = some .opened ∧ Exchange.Play.Staged c.exchange True ∧
    terms.Times late c.exchange now
  | .closed result => Closing terms c now result ∧ now ≤ terms.refining.plus late

/-- **A call that keeps to its schedule.** -/
structure Sound (terms : Terms) (late : Duration) (p : Play) : Prop where
  order : (p.now :: p.script.map Prod.fst).Pairwise (· ≤ ·)
  past : ∀ entry ∈ p.seen, entry.1 ≤ p.now
  answered : p.call.reception = answerOf p.seen
  cancelled : p.call.exchange.cancelled = true ↔ ∃ t, (t, .around .cancel) ∈ p.seen
  /-- No time has gone by since the call was given up. -/
  prompt : ∀ t, (t, .around .cancel) ∈ p.seen → p.now ≤ t
  patience : p.call.connectTimeout = terms.connectTimeout
  stands : Stands terms late p.call p.now

open Exchange.Play (Staged Stays Idles)

/-! ## What happens around a call -/

section Take
variable {x : Exchange.Setting} {e e' : Exchange} {terms : Terms} {late : Duration}
  {now : Instant}

/-- Nothing that happens around an exchange takes room on the requests away. -/
theorem requests_take (x : Exchange.Setting) (c : Exchange.Cue) :
    (x.take c).exchange.stream.requests.queue.length ≤ x.exchange.stream.requests.queue.length ∧
      (x.take c).exchange.stream.requests.capacity = x.exchange.stream.requests.capacity := by
  cases c with
  | cancel | close => exact ⟨Nat.le_refl _, rfl⟩
  | refuse => exact ⟨Nat.zero_le _, rfl⟩
  | pick =>
    unfold Exchange.Setting.take
    dsimp only
    split
    · rename_i hq
      rw [hq]
      exact ⟨Nat.le_succ _, rfl⟩
    · exact ⟨Nat.le_refl _, rfl⟩
  | bring r =>
    unfold Exchange.Setting.take
    dsimp only
    split
    · exact ⟨Nat.le_refl _, rfl⟩
    · exact ⟨Nat.le_refl _, rfl⟩

/-- An exchange stands where another does. -/
theorem Terms.Fits.keep (h : terms.Fits e) (hs : Stays e e') : terms.Fits e' where
  delay := hs.delay.trans h.delay
  timeout := hs.timeout.trans h.timeout
  sent := by
    rw [hs.firstSent]
    exact h.sent

theorem Terms.Times.keep (h : terms.Times late e now) (hs : Stays e e')
    (hr : e.receiver = .absent → e'.receiver = .absent) : terms.Times late e' now := by
  unfold Terms.Times at h ⊢
  rw [hs.stage]
  cases hstage : e.stage with
  | starting | offeringFirst => simp only [hstage] at h
  | resuming =>
    simp only [hstage] at h
    exact ⟨h.1.keep hs, hr h.2.1, h.2.2⟩
  | pausing deadline =>
    simp only [hstage] at h
    exact ⟨h.1.keep hs, h.2⟩
  | offeringSecond =>
    simp only [hstage] at h
    exact ⟨h.1.keep hs, h.2⟩
  | deciding _ | releasing _ | «over» _ | brokenDown => simpa only [hstage] using h

/-- The caller stands where it stood, whatever happens around it. -/
theorem stays_take (x : Exchange.Setting) (c : Exchange.Cue) :
    Stays x.exchange (x.take c).exchange ∧
      (x.take c).exchange.receiver = x.exchange.receiver ∧
        (x.take c).exchange.stopping = x.exchange.stopping := by
  obtain ⟨_, _, _, _, he⟩ := x.take_eq c
  rw [he]
  exact ⟨⟨rfl, rfl, rfl, rfl⟩, rfl, rfl⟩

theorem staged_take (h : Staged x.exchange True) (c : Exchange.Cue) :
    Staged (x.take c).exchange True := by
  obtain ⟨hstays, hreceiver, hstopping⟩ := stays_take x c
  have hroom := Exchange.Play.hasRoom_take (x := x) (c := c)
  unfold Exchange.Play.Staged at h ⊢
  rw [hstays.stage, hreceiver, hstopping]
  split at h
  · exact h
  · exact h
  · exact ⟨h.1, hroom h.2⟩
  · exact ⟨h.1, h.2.1, hroom h.2.2⟩
  · exact ⟨h.1, h.2.1, hroom h.2.2.1, trivial⟩
  · exact h
  · exact h
  · trivial
  · trivial

end Take

section Sound
variable {terms : Terms} {late : Duration} {p : Play} {clock : Clock}

/-- What a turn of the caller leaves alone. -/
theorem Turn.frame {c d : Call} {now : Instant} (h : c.Turn now d) :
    d.reception = c.reception ∧ d.connectTimeout = c.connectTimeout ∧
      d.exchange.cancelled = c.exchange.cancelled := by
  cases h with
  | asks _ ho =>
    refine ⟨rfl, rfl, ?_⟩
    rcases Exchange.offer_cases ho with ⟨-, rfl, -⟩ | ⟨-, rfl, -⟩
    · rfl
    · rfl
  | exchanges _ ht => exact ⟨rfl, rfl, Exchange.Play.cancelled_turn ht⟩
  | _ => exact ⟨rfl, rfl, rfl⟩

/-- The decision falls after the second context has gone out. -/
theorem Terms.deciding_of_refining {t : Instant} (h : t ≤ terms.refining.plus late) :
    t ≤ (terms.deciding late).plus late :=
  Nat.le_trans h (Nat.le_trans (Nat.le_add_right _ _) (Nat.le_add_right _ _))

/-- **What a caller waits for** when nothing can be done. -/
inductive Waits (terms : Terms) (c : Call) (now : Instant) : Instant → Prop
  | opening {giveUp : Instant} (hs : c.stage = .opening giveUp)
      (hc : c.exchange.cancelled = false) (hr : c.reception = none) (hlt : now < giveUp) :
      Waits terms c now giveUp
  | exchanging {deadline : Instant} (hs : c.stage = .exchanging)
      (hi : Idles c.exchange now deadline) : Waits terms c now deadline

/-- A call that is not over waits for a moment if nothing can be done. -/
theorem Sound.waits (h : Sound terms late p) (ho : p.call.result? = none) (hq : p.options = []) :
    ∃ u, Waits terms p.call p.now u := by
  obtain ⟨-, hstep, hreceive⟩ := Play.idle_of_options ho hq
  have hstands := h.stands
  unfold Stands at hstands
  unfold step at hstep
  cases hs : p.call.stage with
  | prepared => simp only [hs] at hstands
  | closed r => simp [result?, hs] at ho
  | starting =>
    -- the first context always finds room
    simp only [hs] at hstands hstep
    have hroom := hstands.2.1.room
    have hoffer := Option.map_eq_none_iff.mp (Option.map_eq_none_iff.mp hstep)
    refine absurd hoffer (Exchange.Play.offer?_ne_none (decide_eq_true ?_) _)
    show p.call.exchange.stream.requests.queue.length < p.call.exchange.stream.requests.capacity
    omega
  | opening giveUp =>
    simp only [hs] at hstep
    obtain ⟨hc, hr, hlt⟩ := open?_eq_none hstep
    exact ⟨giveUp, .opening hs hc hr hlt⟩
  | exchanging =>
    simp only [hs] at hstands hstep
    have hverdict : p.call.exchange.verdict? = none := by
      unfold Exchange.verdict?
      cases hstage : p.call.exchange.stage with
      | «over» o => simp [result?, hs, hstage] at ho
      | brokenDown => simp [result?, hs, hstage] at ho
      | _ => rfl
    obtain ⟨deadline, hi⟩ := Exchange.Play.idles_of_staged hstands.2.1 hverdict
      (Option.map_eq_none_iff.mp hstep) (Option.map_eq_none_iff.mp hreceive)
    exact ⟨deadline, .exchanging hs hi⟩

section Waits
variable {now u : Instant} {c : Call}

theorem Waits.wakesAt (h : Waits terms c now u) : c.wakesAt = some u := by
  unfold Call.wakesAt
  cases h with
  | opening hs _ _ _ => simp only [hs]
  | exchanging hs hi =>
    simp only [hs]
    unfold Exchange.wakesAt
    rcases hi.waiting with hstage | hstage
    · simp only [hstage]
    · simp only [hstage]

theorem Waits.uncancelled (h : Waits terms c now u) : c.exchange.cancelled = false := by
  cases h with
  | opening _ hc _ _ => exact hc
  | exchanging _ hi => exact hi.uncancelled

/-- Whoever waits has a step to take when the moment has come. -/
theorem Waits.step (h : Waits terms c now u) {t : Instant} (ht : u ≤ t) : c.step t ≠ none := by
  intro hstep
  unfold Call.step at hstep
  cases h with
  | opening hs _ _ _ =>
    simp only [hs] at hstep
    exact Nat.not_lt.mpr ht (open?_eq_none hstep).2.2
  | exchanging hs hi =>
    simp only [hs] at hstep
    have hcall := Option.map_eq_none_iff.mp hstep
    unfold Exchange.call at hcall
    rcases hi.waiting with hstage | hstage
    · simp only [hstage] at hcall
      exact Nat.not_lt.mpr ht (Exchange.Play.wake?_eq_none (Option.map_eq_none_iff.mp hcall)).2.2
    · simp only [hstage] at hcall
      exact Nat.not_lt.mpr ht (Exchange.Play.wake?_eq_none (Option.map_eq_none_iff.mp hcall)).2.2

end Waits

end Sound

end Call

end ProgressiveSearch
