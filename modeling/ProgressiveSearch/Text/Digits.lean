/-!
# Numbers in text

How a bounded whole number is read from text. Characters are taken from the left, and the first
fault decides: a character that is no digit, or a digit that takes the number past its bound.
-/
namespace ProgressiveSearch.Text

/-- Why a text is not a number of the wanted kind. -/
inductive NumberFault where
  /-- There is no character at all. -/
  | empty
  /-- A character stands where a digit is needed. -/
  | invalidDigit
  /-- The number is above the largest of its kind. -/
  | tooLarge
  /-- The number is below the smallest of its kind. -/
  | tooSmall
  deriving DecidableEq, Repr

/-- The sentence that reports a fault. -/
def NumberFault.message : NumberFault → String
  | .empty => "cannot parse integer from empty string"
  | .invalidDigit => "invalid digit found in string"
  | .tooLarge => "number too large to fit in target type"
  | .tooSmall => "number too small to fit in target type"

/-- The value of a decimal digit. -/
def digit? (c : Char) : Option Nat :=
  if c.isDigit then some (c.toNat - '0'.toNat) else none

/-- Reads decimal digits after `acc`. The number may grow up to `bound`; `past` is the fault of a
digit that takes it further. -/
def readDigits (bound : Nat) (past : NumberFault) (acc : Nat) : List Char → Except NumberFault Nat
  | [] => .ok acc
  | c :: rest =>
    match digit? c with
    | none => .error .invalidDigit
    | some d =>
      if acc * 10 + d ≤ bound then readDigits bound past (acc * 10 + d) rest else .error past

/-- A number from 0 to `bound`: digits, after an optional plus sign. -/
def readUnsigned (bound : Nat) (s : String) : Except NumberFault Nat :=
  match s.toList with
  | [] => .error .empty
  | ['+'] => .error .invalidDigit
  | ['-'] => .error .invalidDigit
  | '+' :: digits => readDigits bound .tooLarge 0 digits
  | digits => readDigits bound .tooLarge 0 digits

/-- A number from `-(bound + 1)` to `bound`: digits, after an optional sign. -/
def readSigned (bound : Nat) (s : String) : Except NumberFault Int :=
  match s.toList with
  | [] => .error .empty
  | ['+'] => .error .invalidDigit
  | ['-'] => .error .invalidDigit
  | '+' :: digits => (readDigits bound .tooLarge 0 digits).map Int.ofNat
  | '-' :: digits => (readDigits (bound + 1) .tooSmall 0 digits).map fun n => -Int.ofNat n
  | digits => (readDigits bound .tooLarge 0 digits).map Int.ofNat

/-- Digits read after `acc` extend it, so the number read is at most the bound if `acc` is. -/
theorem readDigits_le {bound : Nat} {past : NumberFault} {acc n : Nat} {cs : List Char}
    (hacc : acc ≤ bound) (h : readDigits bound past acc cs = .ok n) : n ≤ bound := by
  induction cs generalizing acc with
  | nil => simp [readDigits] at h; omega
  | cons c rest ih =>
    unfold readDigits at h
    split at h
    · simp at h
    · split at h
      · exact ih (by assumption) h
      · simp at h

end ProgressiveSearch.Text
