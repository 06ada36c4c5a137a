import ProgressiveSearch.Time.Instant

/-! # Clocks

Whoever sleeps until a moment is woken when a clock shows that moment, and a clock
need not show every moment: it may go on by whole milliseconds only.  A clock is
given by the moment that it shows `next`, on or after a given one.
-/
namespace ProgressiveSearch

namespace Instant

/-- The first of some moments. -/
def soonest : List Instant → Option Instant
  | [] => none
  | t :: rest =>
    match soonest rest with
    | none => some t
    | some u => some (if t ≤ u then t else u)

theorem soonest_eq_none {moments : List Instant} (h : soonest moments = none) : moments = [] := by
  cases moments with
  | nil => rfl
  | cons t rest =>
    unfold soonest at h
    split at h <;> cases h

theorem soonest_spec {moments : List Instant} {t : Instant} (h : soonest moments = some t) :
    t ∈ moments ∧ ∀ u ∈ moments, t ≤ u := by
  induction moments generalizing t with
  | nil => cases h
  | cons first rest ih =>
    unfold soonest at h
    cases hrest : soonest rest with
    | none =>
      rw [hrest] at h
      obtain rfl := Option.some.inj h
      obtain rfl := soonest_eq_none hrest
      exact ⟨List.mem_cons_self, fun u hu => by
        obtain rfl := List.mem_singleton.mp hu
        exact Nat.le_refl _⟩
    | some v =>
      rw [hrest] at h
      obtain rfl := Option.some.inj h
      obtain ⟨hmem, hle⟩ := ih hrest
      split
      · rename_i hfirst
        refine ⟨List.mem_cons_self, fun u hu => ?_⟩
        rcases List.mem_cons.mp hu with rfl | hu
        · exact Nat.le_refl _
        · exact Nat.le_trans hfirst (hle u hu)
      · rename_i hlater
        refine ⟨List.mem_cons_of_mem _ hmem, fun u hu => ?_⟩
        rcases List.mem_cons.mp hu with rfl | hu
        · exact Nat.le_of_lt (Nat.lt_of_not_le hlater)
        · exact hle u hu

/-! ## Bounded waits -/

section Wait
variable {t u : Instant} {d : Duration}

theorem giveUpAfter_le (t : Instant) (d : Duration) :
    (t.giveUpAfter d).nanos ≤ t.nanos + d.nanos + farFuture.nanos := by
  unfold giveUpAfter
  cases h : t.after? d with
  | none =>
    show t.nanos + farFuture.nanos ≤ _
    omega
  | some u =>
    rw [after?_eq_some h]
    show t.nanos + d.nanos ≤ _
    omega

end Wait

end Instant

/-- A clock, as what it shows next. -/
structure Clock where
  next : Instant → Instant
  le_next (t : Instant) : t ≤ next t
  next_le {t u : Instant} (h : t ≤ next u) : next t ≤ next u

namespace Clock

/-- A clock that shows every moment. -/
def exact : Clock where
  next := id
  le_next _ := Nat.le_refl _
  next_le := id

/-- A clock that shows whole milliseconds. -/
def millis : Clock where
  next := Instant.ceilMillis
  le_next := Instant.le_ceilMillis
  next_le h := by
    simp only [Instant.le_def, Instant.ceilMillis, Duration.nanosPerMilli] at h ⊢
    omega

/-- The clock shows this moment. -/
def Shows (clock : Clock) (t : Instant) : Prop := clock.next t = t

instance (clock : Clock) (t : Instant) : Decidable (clock.Shows t) :=
  inferInstanceAs (Decidable (clock.next t = t))

/-- When someone wakes who sleeps from `now` on until the deadline: at once, if it is
not ahead. -/
def wakes (clock : Clock) (now deadline : Instant) : Instant :=
  if deadline ≤ now then now else clock.next deadline

variable {clock : Clock} {now t deadline : Instant}

theorem shows_next (clock : Clock) (t : Instant) : clock.Shows (clock.next t) :=
  Instant.le_antisymm (clock.next_le (Nat.le_refl _)) (clock.le_next _)

/-- A clock does not pass over what it shows. -/
theorem next_le_of_shows (ht : clock.Shows t) (h : deadline ≤ t) : clock.next deadline ≤ t := by
  unfold Shows at ht
  rw [← ht] at h ⊢
  exact clock.next_le h

theorem wakes_of_le (h : deadline ≤ now) : clock.wakes now deadline = now := if_pos h

theorem wakes_of_lt (h : now < deadline) : clock.wakes now deadline = clock.next deadline :=
  if_neg (Nat.not_le.mpr h)

theorem le_wakes (clock : Clock) (now deadline : Instant) : now ≤ clock.wakes now deadline := by
  by_cases h : deadline ≤ now
  · rw [wakes_of_le h]
    exact Nat.le_refl _
  · have hlt : now < deadline := Nat.lt_of_not_le h
    rw [wakes_of_lt hlt]
    exact Nat.le_trans (Nat.le_of_lt hlt) (clock.le_next deadline)

theorem deadline_le_wakes (clock : Clock) (now deadline : Instant) :
    deadline ≤ clock.wakes now deadline := by
  by_cases h : deadline ≤ now
  · exact Nat.le_trans h (clock.le_wakes now deadline)
  · rw [wakes_of_lt (Nat.lt_of_not_le h)]
    exact clock.le_next deadline

/-- One who has slept for a while wakes no later than was to be expected, and no
earlier. -/
theorem wakes_eq (ht : clock.Shows t) (h : now ≤ t) (hle : t ≤ clock.wakes now deadline) :
    clock.wakes t deadline = clock.wakes now deadline := by
  by_cases hd : deadline ≤ t
  · have hnext : clock.wakes now deadline ≤ t := by
      by_cases hn : deadline ≤ now
      · rw [wakes_of_le hn]
        exact h
      · rw [wakes_of_lt (Nat.lt_of_not_le hn)]
        exact next_le_of_shows ht hd
    rw [wakes_of_le hd]
    exact Instant.le_antisymm hle hnext
  · have hlt : t < deadline := Nat.lt_of_not_le hd
    rw [wakes_of_lt hlt, wakes_of_lt (Nat.lt_of_le_of_lt h hlt)]

/-- Whoever sleeps longer does not wake earlier. -/
theorem wakes_mono {deadline' : Instant} (h : deadline ≤ deadline') :
    clock.wakes now deadline ≤ clock.wakes now deadline' := by
  by_cases hd : deadline ≤ now
  · rw [wakes_of_le hd]
    exact clock.le_wakes now deadline'
  · have hlt : now < deadline := Nat.lt_of_not_le hd
    rw [wakes_of_lt hlt, wakes_of_lt (Nat.lt_of_lt_of_le hlt h)]
    exact clock.next_le (Nat.le_trans h (clock.le_next deadline'))

theorem shows_wakes (h : clock.Shows now) (deadline : Instant) :
    clock.Shows (clock.wakes now deadline) := by
  by_cases hd : deadline ≤ now
  · rw [wakes_of_le hd]
    exact h
  · rw [wakes_of_lt (Nat.lt_of_not_le hd)]
    exact clock.shows_next deadline

end Clock

end ProgressiveSearch
