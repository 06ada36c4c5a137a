import ProgressiveSearch.Text.Utf8

/-!
# SipHash-1-3

The keyed hash SipHash with one round per word and three rounds at the end, under the key zero. A
value is hashed as the bytes of its parts, one after the other: a text is its UTF-8 bytes and a
closing byte 0xff, a number its eight bytes in little-endian order.
-/
namespace ProgressiveSearch.SipHash

/-- The four words of the hash state. -/
structure State where
  v0 : UInt64
  v1 : UInt64
  v2 : UInt64
  v3 : UInt64

/-- The state before any byte, for the key zero. -/
def State.initial : State where
  v0 := 0x736f6d6570736575
  v1 := 0x646f72616e646f6d
  v2 := 0x6c7967656e657261
  v3 := 0x7465646279746573

/-- Rotation to the left by `n` of the sixty-four bits. -/
def rotateLeft (x n : UInt64) : UInt64 :=
  (x <<< n) ||| (x >>> (64 - n))

/-- One round of additions, rotations and exclusive ors. -/
def State.round (s : State) : State :=
  let v0 := s.v0 + s.v1
  let v1 := rotateLeft s.v1 13 ^^^ v0
  let v0 := rotateLeft v0 32
  let v2 := s.v2 + s.v3
  let v3 := rotateLeft s.v3 16 ^^^ v2
  let v0 := v0 + v3
  let v3 := rotateLeft v3 21 ^^^ v0
  let v2 := v2 + v1
  let v1 := rotateLeft v1 17 ^^^ v2
  let v2 := rotateLeft v2 32
  { v0, v1, v2, v3 }

/-- Takes in one word. -/
def State.absorb (s : State) (word : UInt64) : State :=
  let s := { s with v3 := s.v3 ^^^ word }.round
  { s with v0 := s.v0 ^^^ word }

/-- The hash of all words taken in. -/
def State.finish (s : State) : UInt64 :=
  let s := { s with v2 := s.v2 ^^^ 0xff }.round.round.round
  s.v0 ^^^ s.v1 ^^^ s.v2 ^^^ s.v3

/-- The number whose little-endian bytes are given. -/
def littleEndian : List UInt8 → UInt64
  | [] => 0
  | b :: rest => b.toUInt64 ||| (littleEndian rest <<< 8)

/-- Takes in bytes in words of eight. The last word holds the bytes left over and, in its top byte,
the low byte of the total length. -/
def State.absorbBytes (total : Nat) (s : State) : List UInt8 → State
  | b0 :: b1 :: b2 :: b3 :: b4 :: b5 :: b6 :: b7 :: rest =>
    (s.absorb (littleEndian [b0, b1, b2, b3, b4, b5, b6, b7])).absorbBytes total rest
  | tail => s.absorb (littleEndian tail ||| (UInt64.ofNat (total % 256) <<< 56))

/-- The hash of a sequence of bytes. -/
def digest (bytes : List UInt8) : UInt64 :=
  (State.initial.absorbBytes bytes.length bytes).finish

/-- The bytes under which a text is hashed. -/
def textBytes (s : String) : List UInt8 :=
  Text.utf8 s ++ [0xff]

/-- The bytes under which a number is hashed. -/
def numberBytes (n : UInt64) : List UInt8 :=
  (List.range 8).map fun i => (n >>> UInt64.ofNat (8 * i)).toUInt8

end ProgressiveSearch.SipHash
