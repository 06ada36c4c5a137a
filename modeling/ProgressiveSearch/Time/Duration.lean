/-!
# Durations

A duration is a whole number of nanoseconds. Milliseconds, microseconds and seconds are views of
it that drop what is left over. Its text uses the largest of the units second, millisecond,
microsecond and nanosecond that leaves something before the point, and no trailing zeros after it.
-/
namespace ProgressiveSearch

/-- A span of time in whole nanoseconds. -/
structure Duration where
  nanos : Nat
  deriving DecidableEq, Repr, Inhabited

namespace Duration

def nanosPerMicro : Nat := 1000
def nanosPerMilli : Nat := 1000000
def nanosPerSecond : Nat := 1000000000

def zero : Duration := ⟨0⟩
def ofMicros (n : Nat) : Duration := ⟨n * nanosPerMicro⟩
def ofMillis (n : Nat) : Duration := ⟨n * nanosPerMilli⟩
def ofSeconds (n : Nat) : Duration := ⟨n * nanosPerSecond⟩

instance : LE Duration := ⟨fun a b => a.nanos ≤ b.nanos⟩
instance (a b : Duration) : Decidable (a ≤ b) := inferInstanceAs (Decidable (a.nanos ≤ b.nanos))

/-- Whole microseconds, the rest dropped. -/
def micros (d : Duration) : Nat := d.nanos / nanosPerMicro

/-- Whole milliseconds, the rest dropped. -/
def millis (d : Duration) : Nat := d.nanos / nanosPerMilli

/-- Whole seconds, the rest dropped. -/
def seconds (d : Duration) : Nat := d.nanos / nanosPerSecond

/-- What is left after the whole seconds, in nanoseconds. -/
def subsecondNanos (d : Duration) : Nat := d.nanos % nanosPerSecond

theorem le_def {a b : Duration} : a ≤ b ↔ a.nanos ≤ b.nanos := Iff.rfl

@[simp] theorem nanos_ofMillis (n : Nat) : (ofMillis n).nanos = n * 1000000 := rfl
@[simp] theorem nanos_ofMicros (n : Nat) : (ofMicros n).nanos = n * 1000 := rfl
/-- The digits of a fraction `part / 10 ^ places`, without trailing zeros. -/
def fractionDigits (places part : Nat) : List Char :=
  let digits := Nat.toDigits 10 part
  let padded := List.replicate (places - digits.length) '0' ++ digits
  (padded.reverse.dropWhile (· = '0')).reverse

/-- A number with `places` decimal places, zeros at the end and an idle point left out. -/
def decimalText (whole places part : Nat) : String :=
  let fraction := if part = 0 then [] else fractionDigits places part
  String.ofList (Nat.toDigits 10 whole ++ (if fraction.isEmpty then [] else '.' :: fraction))

/-- The text of a duration in the largest unit that it reaches. -/
def text (d : Duration) : String :=
  if d.seconds > 0 then decimalText d.seconds 9 d.subsecondNanos ++ "s"
  else if d.millis > 0 then decimalText d.millis 6 (d.nanos % nanosPerMilli) ++ "ms"
  else if d.micros > 0 then decimalText d.micros 3 (d.nanos % nanosPerMicro) ++ "µs"
  else decimalText d.nanos 0 0 ++ "ns"

end Duration

end ProgressiveSearch
