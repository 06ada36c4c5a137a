import ProgressiveSearch.Contract
import ProgressiveSearch.Random.Source
import ProgressiveSearch.Word

/-!
# Decision windows

The closed range from which a client draws the time after which it decides. A timeout is drawn
uniformly among the whole microseconds of the range, which are counted in sixty-four bits.
-/
namespace ProgressiveSearch

/-- A range of timeouts. The bounds are in order when the window was made by `make?`. -/
structure DecisionWindow where
  min : Duration
  max : Duration
  deriving DecidableEq, Repr

namespace DecisionWindow

/-- The window of the timing contract. -/
def standard : DecisionWindow := ⟨Contract.decisionMin, Contract.decisionMax⟩

instance : Inhabited DecisionWindow := ⟨standard⟩

/-- The window with these bounds, refused when they are not in order. -/
def make? (min max : Duration) : Option DecisionWindow :=
  if min ≤ max then some ⟨min, max⟩ else none

/-- The window that always yields the same timeout. -/
def fixed (timeout : Duration) : DecisionWindow := ⟨timeout, timeout⟩

/-- A duration in microseconds, in a word of sixty-four bits: what does not fit is cut off. -/
def microsWord (d : Duration) : Nat := d.micros % Word.size64

/-- Draws a timeout. There is none when the bounds, cut to sixty-four bits, are not in order. -/
def sample? (window : DecisionWindow) (source : Random.Source) :
    Option (Duration × Random.Source) :=
  (source.uniform? .bits64 (microsWord window.min) (microsWord window.max)).map fun (n, rest) =>
    (.ofMicros n, rest)

/-- Draws `n` timeouts, one after the other. -/
def samples? (window : DecisionWindow) : Nat → Random.Source → Option (List Duration)
  | 0, _ => some []
  | n + 1, source =>
    match window.sample? source with
    | none => none
    | some (timeout, rest) => (window.samples? n rest).map (timeout :: ·)

/-- Both bounds have the same number of whole microseconds, so that nothing is left to chance. -/
def isDetermined (window : DecisionWindow) : Bool :=
  window.min.micros = window.max.micros

end DecisionWindow

end ProgressiveSearch
