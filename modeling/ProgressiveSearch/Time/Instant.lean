import ProgressiveSearch.Time.Duration
import ProgressiveSearch.Word

/-!
# Instants

An instant is the time since a clock started. The clock reaches to a fixed horizon: a moment
beyond it cannot be named, and asking for one is answered by `none`.
-/
namespace ProgressiveSearch

/-- A moment on a clock, in nanoseconds since the clock started. -/
structure Instant where
  nanos : Nat
  deriving DecidableEq, Repr, Inhabited

namespace Instant

/-- The moment at which the clock started. -/
def start : Instant := ⟨0⟩

/-- The number of seconds that a clock can count: just under the sixty-three bits of its second
counter, since a clock has been running for a while when it starts to be read. -/
def horizonSeconds : Nat := Word.size63 - 1000

/-- The first moment that a clock cannot name. -/
def horizon : Instant := ⟨horizonSeconds * Duration.nanosPerSecond⟩

instance : LE Instant := ⟨fun a b => a.nanos ≤ b.nanos⟩
instance : LT Instant := ⟨fun a b => a.nanos < b.nanos⟩
instance (a b : Instant) : Decidable (a ≤ b) := inferInstanceAs (Decidable (a.nanos ≤ b.nanos))
instance (a b : Instant) : Decidable (a < b) := inferInstanceAs (Decidable (a.nanos < b.nanos))

theorem le_def {a b : Instant} : a ≤ b ↔ a.nanos ≤ b.nanos := Iff.rfl
theorem lt_def {a b : Instant} : a < b ↔ a.nanos < b.nanos := Iff.rfl

theorem le_antisymm {a b : Instant} (h : a ≤ b) (h' : b ≤ a) : a = b := by
  cases a
  cases b
  exact congrArg mk (Nat.le_antisymm h h')

/-- The moment `d` after `t`, the horizon put aside. -/
def plus (t : Instant) (d : Duration) : Instant := ⟨t.nanos + d.nanos⟩

/-- The moment `d` after `t`, if the clock can name it. -/
def after? (t : Instant) (d : Duration) : Option Instant :=
  if t.plus d < horizon then some (t.plus d) else none

/-- How long a wait of absurd length really lasts: thirty years. -/
def farFuture : Duration := .ofSeconds (30 * 365 * 86400)

/-- The moment at which a bounded wait that starts at `t` gives up: after `d`, or in the far future
if the clock cannot name that moment. -/
def giveUpAfter (t : Instant) (d : Duration) : Instant :=
  (t.after? d).getD (t.plus farFuture)

/-- The time that has passed from `t` to `now`. -/
def elapsed (t now : Instant) : Duration := ⟨now.nanos - t.nanos⟩

/-- The first whole millisecond that is not before `t`: timers go off on whole milliseconds. -/
def ceilMillis (t : Instant) : Instant :=
  ⟨(t.nanos + (Duration.nanosPerMilli - 1)) / Duration.nanosPerMilli * Duration.nanosPerMilli⟩

/-- Whole milliseconds since the clock started, the rest dropped. -/
def wholeMillis (t : Instant) : Nat := t.nanos / Duration.nanosPerMilli

@[simp] theorem nanos_plus (t : Instant) (d : Duration) : (t.plus d).nanos = t.nanos + d.nanos :=
  rfl

theorem after?_eq_some {t u : Instant} {d : Duration} (h : t.after? d = some u) : u = t.plus d := by
  simp only [after?] at h
  split at h <;> simp_all

/-- A moment counted from `t` is not before it. -/
theorem le_after? {t u : Instant} {d : Duration} (h : t.after? d = some u) : t ≤ u := by
  rw [after?_eq_some h]
  exact Nat.le_add_right _ _

theorem plus_elapsed {t u : Instant} (h : t ≤ u) : t.plus (t.elapsed u) = u := by
  have hle := le_def.mp h
  show Instant.mk (t.nanos + (u.nanos - t.nanos)) = u
  rw [Nat.add_sub_cancel' hle]

@[simp] theorem elapsed_plus (t : Instant) (d : Duration) : t.elapsed (t.plus d) = d := by
  simp [elapsed, plus]

theorem le_ceilMillis (t : Instant) : t ≤ t.ceilMillis := by
  simp only [le_def, ceilMillis, Duration.nanosPerMilli]
  omega

end Instant

end ProgressiveSearch
