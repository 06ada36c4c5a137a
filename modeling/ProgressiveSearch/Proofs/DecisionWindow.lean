import ProgressiveSearch.DecisionWindow
import ProgressiveSearch.Proofs.Random.Uniform

/-! # What can be drawn from a decision window

A window is drawn from in whole microseconds, which are counted in sixty-four bits.
What is drawn is between the bounds as they are counted (`sample?_bounds`), and there is
nothing to draw exactly if these are not in order (`sample?_eq_none`).

For a window of whole milliseconds this is what was meant as long as its lower bound is
not above its upper one, the upper one being cut to sixty-four bits
(`drawsWithin_ofMillis_iff`).  Otherwise there is nothing to draw, or only what is too
short.

If the upper bound has its place in sixty-four bits, nothing is cut.  Then the timeouts
that some source yields are the whole microseconds of the window, each of them
(`drawable_iff_micros`).
-/
namespace ProgressiveSearch.DecisionWindow

/-- **Whatever the source, there is a timeout to draw, and it is within the window.** -/
def DrawsWithin (window : DecisionWindow) : Prop :=
  ∀ source, ∃ timeout rest, window.sample? source = some (timeout, rest) ∧
    window.min ≤ timeout ∧ timeout ≤ window.max

/-- Whatever the source, there is nothing to draw. -/
def DrawsNothing (window : DecisionWindow) : Prop :=
  ∀ source, window.sample? source = none

/-- Whatever the source, the timeout drawn is less than the lower bound. -/
def DrawsShort (window : DecisionWindow) : Prop :=
  ∀ source, ∃ timeout rest, window.sample? source = some (timeout, rest) ∧
    ¬ window.min ≤ timeout

section Draws
variable {window : DecisionWindow} {source rest : Random.Source} {timeout : Duration}

/-- The bounds of a window that was made are the ones asked for, in order. -/
theorem make?_eq_some {min max : Duration} :
    make? min max = some window ↔ min ≤ max ∧ window = ⟨min, max⟩ := by
  unfold make?
  by_cases h : min ≤ max
  · simp [h, eq_comm]
  · simp [h]

theorem microsWord_lt (d : Duration) : microsWord d < Word.size64 :=
  Nat.mod_lt _ (by decide)

theorem sample?_eq_none :
    window.sample? source = none ↔ microsWord window.max < microsWord window.min := by
  rw [sample?, Option.map_eq_none_iff, Random.Source.uniform?_eq_none]

/-- What is drawn is a whole number of microseconds. -/
theorem sample?_micros (h : window.sample? source = some (timeout, rest)) :
    ∃ n, microsWord window.min ≤ n ∧ n ≤ microsWord window.max ∧ timeout = .ofMicros n := by
  obtain ⟨⟨n, later⟩, hn, he⟩ := Option.map_eq_some_iff.mp h
  obtain ⟨hlo, hhi⟩ := Random.Source.uniform?_bounds (microsWord_lt _) hn
  exact ⟨n, hlo, hhi, (Prod.mk.inj he).1.symm⟩

theorem sample?_bounds (h : window.sample? source = some (timeout, rest)) :
    .ofMicros (microsWord window.min) ≤ timeout ∧
      timeout ≤ .ofMicros (microsWord window.max) := by
  obtain ⟨n, hlo, hhi, rfl⟩ := sample?_micros h
  exact ⟨Nat.mul_le_mul_right _ hlo, Nat.mul_le_mul_right _ hhi⟩

/-- If the bounds are in order as they are counted, there is something to draw. -/
theorem sample?_of_le (window : DecisionWindow)
    (h : microsWord window.min ≤ microsWord window.max) (source : Random.Source) :
    ∃ timeout rest, window.sample? source = some (timeout, rest) := by
  cases hs : window.sample? source with
  | none => exact absurd (sample?_eq_none.mp hs) (Nat.not_lt.mpr h)
  | some drawn => exact ⟨drawn.1, drawn.2, rfl⟩

end Draws

section Millis
variable {lo hi : Nat}

theorem microsWord_ofMillis (n : Nat) : microsWord (.ofMillis n) = n * 1000 % Word.size64 := by
  have hmicros : (Duration.ofMillis n).micros = n * 1000 := by
    rw [Duration.micros, Duration.nanos_ofMillis, Duration.nanosPerMicro]
    omega
  rw [microsWord, hmicros]

theorem microsWord_ofMillis_le (n : Nat) : microsWord (.ofMillis n) ≤ n * 1000 :=
  microsWord_ofMillis n ▸ Nat.mod_le _ _

/-- A number of milliseconds whose microseconds have their place is counted in full. -/
theorem microsWord_ofMillis_of_lt {n : Nat} (h : n * 1000 < Word.size64) :
    microsWord (.ofMillis n) = n * 1000 := by
  rw [microsWord_ofMillis, Nat.mod_eq_of_lt h]

/-- Milliseconds are not more than microseconds exactly if they are not so in
microseconds. -/
theorem ofMillis_le_ofMicros {m n : Nat} :
    Duration.ofMillis m ≤ .ofMicros n ↔ m * 1000 ≤ n := by
  rw [Duration.le_def, Duration.nanos_ofMillis, Duration.nanos_ofMicros]
  omega

theorem ofMicros_le_ofMillis {m n : Nat} :
    Duration.ofMicros m ≤ .ofMillis n ↔ m ≤ n * 1000 := by
  rw [Duration.le_def, Duration.nanos_ofMillis, Duration.nanos_ofMicros]
  omega

/-- **When a window of whole milliseconds yields what it is meant to.** -/
theorem drawsWithin_ofMillis_iff :
    DrawsWithin ⟨.ofMillis lo, .ofMillis hi⟩ ↔ lo * 1000 ≤ microsWord (.ofMillis hi) := by
  constructor
  · intro h
    -- any source will do
    obtain ⟨timeout, rest, hs, hmin, -⟩ := h ⟨fun _ => 0, 0⟩
    exact ofMillis_le_ofMicros.mp (Nat.le_trans hmin (sample?_bounds hs).2)
  · intro h source
    -- the lower bound is counted in full
    have hlo : microsWord (.ofMillis lo) = lo * 1000 :=
      microsWord_ofMillis_of_lt (Nat.lt_of_le_of_lt h (microsWord_lt _))
    have hle : microsWord (.ofMillis lo) ≤ microsWord (.ofMillis hi) := by
      rw [hlo]
      exact h
    obtain ⟨timeout, rest, hs⟩ := sample?_of_le ⟨.ofMillis lo, .ofMillis hi⟩ hle source
    obtain ⟨hmin, hmax⟩ := sample?_bounds hs
    refine ⟨timeout, rest, hs, Nat.le_trans ?_ hmin, Nat.le_trans hmax ?_⟩
    · exact ofMillis_le_ofMicros.mpr (Nat.le_of_eq hlo.symm)
    · exact ofMicros_le_ofMillis.mpr (microsWord_ofMillis_le hi)

/-- **Otherwise it yields nothing, or only what is too short.** -/
theorem draws_of_not_within (h : ¬ DrawsWithin ⟨.ofMillis lo, .ofMillis hi⟩) :
    DrawsNothing ⟨.ofMillis lo, .ofMillis hi⟩ ∨ DrawsShort ⟨.ofMillis lo, .ofMillis hi⟩ := by
  rw [drawsWithin_ofMillis_iff] at h
  by_cases hle : microsWord (.ofMillis lo) ≤ microsWord (.ofMillis hi)
  · refine .inr fun source => ?_
    obtain ⟨timeout, rest, hs⟩ := sample?_of_le ⟨.ofMillis lo, .ofMillis hi⟩ hle source
    refine ⟨timeout, rest, hs, fun hmin => h ?_⟩
    exact ofMillis_le_ofMicros.mp (Nat.le_trans hmin (sample?_bounds hs).2)
  · exact .inl fun source => sample?_eq_none.mpr (Nat.lt_of_not_le hle)

end Millis

/-! ## What can be drawn at all -/

section Drawable
variable {window : DecisionWindow} {n : Nat}

/-- Some source yields the timeout. -/
def Drawable (window : DecisionWindow) (timeout : Duration) : Prop :=
  ∃ source rest, window.sample? source = some (timeout, rest)

/-- A duration whose microseconds have their place is counted in full. -/
theorem microsWord_of_lt {d : Duration} (h : d.micros < Word.size64) :
    microsWord d = d.micros :=
  Nat.mod_eq_of_lt h

/-- Every number of microseconds between the bounds is drawn from some source. -/
theorem drawable_ofMicros (hlo : microsWord window.min ≤ n) (hhi : n ≤ microsWord window.max) :
    window.Drawable (.ofMicros n) := by
  obtain ⟨source, rest, hn⟩ :=
    Random.Source.uniform?_reaches (w := .bits64) hlo hhi (microsWord_lt window.max)
  refine ⟨source, rest, ?_⟩
  rw [sample?, hn]
  rfl

/-- **The draw hits exactly its window.**  Let the bounds be in order, as they are in every
window that was made, and the upper one less than 2^64 microseconds.  Then every source
yields a timeout, and the timeouts that the sources yield are the whole microseconds from
the lower bound to the upper one, no others and all of these. -/
theorem drawable_iff_micros (hle : window.min ≤ window.max)
    (hmax : window.max.micros < Word.size64) :
    (∀ source, ∃ timeout rest, window.sample? source = some (timeout, rest)) ∧
      ∀ timeout, window.Drawable timeout ↔
        ∃ n, window.min.micros ≤ n ∧ n ≤ window.max.micros ∧ timeout = .ofMicros n := by
  have hmicros : window.min.micros ≤ window.max.micros := Nat.div_le_div_right hle
  have hlo : microsWord window.min = window.min.micros :=
    microsWord_of_lt (Nat.lt_of_le_of_lt hmicros hmax)
  have hhi : microsWord window.max = window.max.micros := microsWord_of_lt hmax
  refine ⟨sample?_of_le window (by rw [hlo, hhi]; exact hmicros), fun timeout => ⟨?_, ?_⟩⟩
  · rintro ⟨source, rest, hs⟩
    have hwhole := sample?_micros hs
    rwa [hlo, hhi] at hwhole
  · rintro ⟨n, hmin, hn, rfl⟩
    exact drawable_ofMicros (hlo ▸ hmin) (hhi ▸ hn)

/-- The widest window whose microseconds have their place: its draw is a whole word, and
the microsecond that its upper bound has begun is not drawn. -/
theorem drawable_iff_micros_widest :
    let widest : DecisionWindow := ⟨.zero, ⟨18446744073709551615999⟩⟩
    make? .zero ⟨18446744073709551615999⟩ = some widest ∧
      widest.max.micros = 18446744073709551615 ∧
      (∀ source, ∃ timeout rest, widest.sample? source = some (timeout, rest)) ∧
      ∀ timeout, widest.Drawable timeout ↔
        ∃ n, 0 ≤ n ∧ n ≤ 18446744073709551615 ∧ timeout = .ofMicros n :=
  have hmade : make? .zero ⟨18446744073709551615999⟩ =
      some (⟨.zero, ⟨18446744073709551615999⟩⟩ : DecisionWindow) := by decide
  ⟨hmade, by decide, drawable_iff_micros (make?_eq_some.mp hmade).1 (by decide)⟩

end Drawable
end ProgressiveSearch.DecisionWindow
