/-!
# Variable-length numbers

A number below `2 ^ 64` as one to ten bytes: seven bits in each, the lowest first, with the top bit
set on every byte but the last. Longer forms than needed are read as well, but ten bytes are the
limit, and the tenth has room for a single bit.
-/
namespace ProgressiveSearch.Wire

/-- Bytes on the wire. -/
abbrev Bytes := List UInt8

/-- The shortest form of a number. -/
def varint (n : Nat) : Bytes :=
  if n < 128 then [UInt8.ofNat n] else UInt8.ofNat (n % 128 + 128) :: varint (n / 128)
termination_by n
decreasing_by omega

/-- Reads a number of at most `allowed` bytes off the front, where the tenth byte of ten is the one
that leaves none allowed. -/
def readVarintWithin : Nat → Bytes → Option (Nat × Bytes)
  | 0, _ => none
  | _ + 1, [] => none
  | allowed + 1, b :: rest =>
    if b.toNat < 128 then
      if allowed = 0 ∧ 2 ≤ b.toNat then none else some (b.toNat, rest)
    else (readVarintWithin allowed rest).map fun (n, rest) => (b.toNat - 128 + 128 * n, rest)

/-- Reads a number off the front. -/
def readVarint? (bytes : Bytes) : Option (Nat × Bytes) :=
  readVarintWithin 10 bytes

end ProgressiveSearch.Wire
