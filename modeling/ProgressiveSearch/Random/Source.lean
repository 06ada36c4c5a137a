import ProgressiveSearch.Random.ChaCha
import ProgressiveSearch.Word

/-!
# Random sources and uniform draws

A source is an endless stream of 32-bit words, read from the left; a 64-bit word is two of them, the
low one first. A whole number is drawn uniformly from a closed range by a widening product: the high
half of `word * size` is the offset into the range, and a second word decides whether the part that
the high half cuts off carries into it.
-/
namespace ProgressiveSearch.Random

/-- A stream of words and the position of the next one. -/
structure Source where
  word : Nat → UInt32
  position : Nat

/-- The source that a seed gives. -/
def Source.ofSeed (seed : UInt64) : Source where
  word := ChaCha.word (ChaCha.Key.ofSeed seed)
  position := 0

/-- The next 32 bits. -/
def Source.next32 (s : Source) : UInt32 × Source :=
  (s.word s.position, { s with position := s.position + 1 })

/-- The next 64 bits: two words, the low one first. -/
def Source.next64 (s : Source) : UInt64 × Source :=
  let low := s.word s.position
  let high := s.word (s.position + 1)
  (low.toUInt64 ||| (high.toUInt64 <<< 32), { s with position := s.position + 2 })

/-- Words of a width that is a number of bits. -/
inductive Width where
  | bits32
  | bits64
  deriving DecidableEq, Repr

/-- How many words of a width there are. -/
def Width.size : Width → Nat
  | .bits32 => Word.size32
  | .bits64 => Word.size64

/-- The next word of a width, as a number. -/
def Source.next (s : Source) : Width → Nat × Source
  | .bits32 => (s.next32.1.toNat, s.next32.2)
  | .bits64 => (s.next64.1.toNat, s.next64.2)

/-- The offset that the first word gives when it decides alone: the high half of the product. -/
def highHalf (w : Width) (range x : Nat) : Nat := x * range / w.size

/-- The part of the product that the high half cuts off. -/
def lowHalf (w : Width) (range x : Nat) : Nat := x * range % w.size

/-- One more than the high half is drawn when the second word carries into it. -/
def carried (w : Width) (range x y : Nat) : Nat :=
  if lowHalf w range x + highHalf w range y ≥ w.size then highHalf w range x + 1
  else highHalf w range x

/-- Draws a number from `lo` to `hi`, both included; there is none if `hi < lo`. A range as wide as
the word itself takes the word as it is. A second word is drawn only when the part cut off is so
large that it can carry. -/
def Source.uniform? (s : Source) (w : Width) (lo hi : Nat) : Option (Nat × Source) :=
  if hi < lo then none
  else
    let range := (hi - lo + 1) % w.size
    let (x, s) := s.next w
    if range = 0 then some ((lo + x) % w.size, s)
    else if lowHalf w range x > w.size - range then
      let (y, s) := s.next w
      some (lo + carried w range x y, s)
    else some (lo + highHalf w range x, s)

end ProgressiveSearch.Random
