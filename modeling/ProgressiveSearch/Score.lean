import ProgressiveSearch.Word

/-!
# Scores

A score is a double-precision number, kept as its sixty-four bits so that every pattern can be
stored, sent and compared: zeros of both signs and every NaN are different scores. Scores are
ranked by the total order on these bits, and shown with a fixed number of decimal places.
-/
namespace ProgressiveSearch

/-- The bits of a double-precision number. -/
structure Score where
  bits : UInt64
  deriving DecidableEq, Repr, Inhabited

namespace Score

/-- The score with the value zero. -/
def zero : Score := ⟨0⟩

def ofFloat (x : Float) : Score := ⟨x.toBits⟩

/-- Confines a number to the range from 0 to 1. What compares with neither bound is kept. -/
def confine (x : Float) : Float :=
  if x < 0 then 0 else if 1 < x then 1 else x

/-! ## The total order -/

/-- The place of a score in the total order: negative numbers come first, the larger the magnitude
the earlier, then positive ones, the larger the magnitude the later. NaNs lie beyond the
infinities of their sign. -/
def rank (s : Score) : Nat :=
  if s.bits.toNat < Word.size63 then Word.size63 + s.bits.toNat else Word.max64 - s.bits.toNat

/-! ## Decimal text -/

/-- How many fractions the fifty-two fraction bits can hold. -/
abbrev fractionSize : Nat := 4503599627370496

/-- How many exponents the eleven exponent bits can hold. -/
abbrev exponentSize : Nat := 2048

/-- The sign bit. -/
def isNegative (s : Score) : Bool := s.bits.toNat / Word.size63 = 1

/-- The eleven exponent bits. -/
def exponentBits (s : Score) : Nat := s.bits.toNat / fractionSize % exponentSize

/-- The fifty-two fraction bits. -/
def fractionBits (s : Score) : Nat := s.bits.toNat % fractionSize

/-- The magnitude of a finite score is `significand * 2 ^ (shift - 1075)`. -/
def significand (s : Score) : Nat :=
  if s.exponentBits = 0 then s.fractionBits else s.fractionBits + fractionSize

/-- The power of two that scales the significand, counted from the smallest. -/
def shift (s : Score) : Nat := max s.exponentBits 1

/-- A quotient rounded to the nearest whole number, a half to the even one. -/
def roundedQuotient (num den : Nat) : Nat :=
  let q := num / den
  let r := num % den
  if 2 * r < den then q
  else if den < 2 * r then q + 1
  else if q % 2 = 0 then q else q + 1

/-- A magnitude in units of `10 ^ -places`, rounded. -/
def scaled (s : Score) (places : Nat) : Nat :=
  roundedQuotient (s.significand * Nat.pow 10 places * Nat.pow 2 s.shift) (Nat.pow 2 1075)

/-- A whole number of units of `10 ^ -places`, with a point. -/
def fixedPoint (places n : Nat) : String :=
  let fraction := Nat.toDigits 10 (n % Nat.pow 10 places)
  let padding := List.replicate (places - fraction.length) '0'
  String.ofList (Nat.toDigits 10 (n / Nat.pow 10 places) ++ '.' :: padding ++ fraction)

/-- A score with `places` decimal places. -/
def text (places : Nat) (s : Score) : String :=
  if s.exponentBits = exponentSize - 1 then
    if s.fractionBits ≠ 0 then "NaN" else if s.isNegative then "-inf" else "inf"
  else (if s.isNegative then "-" else "") ++ fixedPoint places (s.scaled places)

end Score

end ProgressiveSearch
