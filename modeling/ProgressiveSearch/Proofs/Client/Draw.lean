import ProgressiveSearch.Client.Config
import ProgressiveSearch.Proofs.DecisionWindow

/-! # What a configured client can draw

A configuration is accepted if the bounds of its decision window are in order, as whole
milliseconds of any size.  Its draws are counted in microseconds of sixty-four bits, in
which not every number of milliseconds has its place.  So it depends on the bounds
whether an accepted configuration yields what it promises (`draws_within_iff`): it does
if the upper bound has its place, and does not if neither has.
-/
namespace ProgressiveSearch.Client

open DecisionWindow (drawsWithin_ofMillis_iff draws_of_not_within microsWord
  microsWord_ofMillis sample?_eq_none sample?_bounds sample?_of_le)

/-- The lower bound of the decision window that the options ask for, in milliseconds. -/
def decisionMinMillis (found : Options.Found Setting) : Nat :=
  found.number .decisionMin Contract.decisionMin.millis

/-- The upper bound. -/
def decisionMaxMillis (found : Options.Found Setting) : Nat :=
  found.number .decisionMax Contract.decisionMax.millis

namespace Config

/-- The window of an accepted configuration is the one asked for, in order. -/
theorem window_ofFound {found : Options.Found Setting} {config : Config}
    (h : ofFound found = .ok config) :
    config.exchange.window =
        ⟨.ofMillis (decisionMinMillis found), .ofMillis (decisionMaxMillis found)⟩ ∧
      decisionMinMillis found ≤ decisionMaxMillis found := by
  unfold ofFound at h
  dsimp only at h
  split at h
  · cases h
  · split at h
    · cases h
    · split at h
      · cases h
      · rename_i window hw
        obtain rfl := Except.ok.inj h
        obtain ⟨hle, rfl⟩ := DecisionWindow.make?_eq_some.mp hw
        refine ⟨rfl, ?_⟩
        have hnanos : decisionMinMillis found * 1000000 ≤ decisionMaxMillis found * 1000000 := hle
        omega

/-- **When an accepted configuration can make its draw.**  Its window is the one asked
for.  It always yields a timeout within the window exactly if its lower bound is not
above its upper one, counted in microseconds of which only sixty-four bits are kept; this
is so whenever the upper bound is less than 2^64 microseconds.  Otherwise it never yields
a timeout, or always one that is too short. -/
theorem draws_within_iff {found : Options.Found Setting} {config : Config}
    (h : ofFound found = .ok config) :
    let lo := decisionMinMillis found
    let hi := decisionMaxMillis found
    config.exchange.window = ⟨.ofMillis lo, .ofMillis hi⟩ ∧
      (config.exchange.window.DrawsWithin ↔ lo * 1000 ≤ hi * 1000 % Word.size64) ∧
      (hi * 1000 < Word.size64 → config.exchange.window.DrawsWithin) ∧
      (¬ config.exchange.window.DrawsWithin →
        config.exchange.window.DrawsNothing ∨ config.exchange.window.DrawsShort) := by
  intro lo hi
  obtain ⟨hw, hle⟩ := window_ofFound h
  rw [hw]
  have hiff : DecisionWindow.DrawsWithin ⟨.ofMillis lo, .ofMillis hi⟩ ↔
      lo * 1000 ≤ microsWord (.ofMillis hi) :=
    drawsWithin_ofMillis_iff
  rw [microsWord_ofMillis] at hiff
  refine ⟨rfl, hiff, fun hsize => hiff.mpr ?_, draws_of_not_within⟩
  rw [Nat.mod_eq_of_lt hsize]
  exact Nat.mul_le_mul_right _ hle

/-- Options that ask for a decision window, in milliseconds, and nothing else. -/
def windowOptions (lo hi : Nat) : Options.Found Setting :=
  [(.decisionMin, .number lo), (.decisionMax, .number hi)]

/-- The standard configuration with another decision window, in milliseconds. -/
def ofWindow (lo hi : Nat) : Config :=
  standard.withExchange { standard.exchange with window := ⟨.ofMillis lo, .ofMillis hi⟩ }

/-- The farthest bound that has its place in sixty-four bits of microseconds. -/
theorem draws_within_farthest :
    ofFound (windowOptions 0 18446744073709551) = .ok (ofWindow 0 18446744073709551) ∧
      18446744073709551 * 1000 < Word.size64 ∧
      (ofWindow 0 18446744073709551).exchange.window.DrawsWithin :=
  have h : ofFound (windowOptions 0 18446744073709551) = .ok (ofWindow 0 18446744073709551) := rfl
  ⟨h, by decide, (draws_within_iff h).2.2.1 (by decide)⟩

/-- **One millisecond farther** an accepted configuration yields nothing, or no more than
384 microseconds where it is to yield more than half a million years. -/
theorem draws_amiss_beyond :
    ofFound (windowOptions 18446744073709551 18446744073709552) =
        .ok (ofWindow 18446744073709551 18446744073709552) ∧
      (ofWindow 18446744073709551 18446744073709552).exchange.window.DrawsNothing ∧
      ofFound (windowOptions 18446744073709552 18446744073709552) =
        .ok (ofWindow 18446744073709552 18446744073709552) ∧
      ∀ source, ∃ rest,
        (ofWindow 18446744073709552 18446744073709552).exchange.window.sample? source =
          some (.ofMicros 384, rest) := by
  have hnear : microsWord (.ofMillis 18446744073709551) = 18446744073709551000 := by decide
  have hfar : microsWord (.ofMillis 18446744073709552) = 384 := by decide
  refine ⟨rfl, fun source => ?_, rfl, fun source => ?_⟩
  · refine sample?_eq_none.mpr ?_
    show microsWord (.ofMillis 18446744073709552) < microsWord (.ofMillis 18446744073709551)
    rw [hnear, hfar]
    decide
  · -- both bounds are counted as 384, so nothing is left to chance
    obtain ⟨timeout, rest, hs⟩ := sample?_of_le
      (ofWindow 18446744073709552 18446744073709552).exchange.window (Nat.le_refl _) source
    obtain ⟨hmin, hmax⟩ := sample?_bounds hs
    have hmax' : timeout ≤ .ofMicros 384 := hfar ▸ hmax
    have hmin' : .ofMicros 384 ≤ timeout := hfar ▸ hmin
    obtain rfl : timeout = .ofMicros 384 := congrArg Duration.mk (Nat.le_antisymm hmax' hmin')
    exact ⟨rest, hs⟩

end Config
end ProgressiveSearch.Client
