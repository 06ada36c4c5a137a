/-!
# ChaCha with twelve rounds

A stream of 32-bit words made from a key of eight words. The stream is cut into blocks of sixteen
words; block `n` is the twelve-round ChaCha block of the key with the 64-bit counter `n` and stream
number zero. Keys are grown from a single 64-bit seed.
-/
namespace ProgressiveSearch.ChaCha

/-- The sixteen words of a block. -/
structure Block where
  words : Vector UInt32 16

/-- Eight key words. -/
structure Key where
  words : Vector UInt32 8

/-- Rotation to the left by `n` of the thirty-two bits. -/
def rotateLeft (x n : UInt32) : UInt32 :=
  (x <<< n) ||| (x >>> (32 - n))

/-- The quarter round on the words at four places. -/
def quarterRound (w : Vector UInt32 16) (a b c d : Fin 16) : Vector UInt32 16 :=
  let wa := w[a] + w[b]
  let wd := rotateLeft (w[d] ^^^ wa) 16
  let wc := w[c] + wd
  let wb := rotateLeft (w[b] ^^^ wc) 12
  let wa := wa + wb
  let wd := rotateLeft (wd ^^^ wa) 8
  let wc := wc + wd
  let wb := rotateLeft (wb ^^^ wc) 7
  (((w.set a wa).set b wb).set c wc).set d wd

/-- Four quarter rounds down the columns, then four along the diagonals. -/
def doubleRound (w : Vector UInt32 16) : Vector UInt32 16 :=
  let w := quarterRound w 0 4 8 12
  let w := quarterRound w 1 5 9 13
  let w := quarterRound w 2 6 10 14
  let w := quarterRound w 3 7 11 15
  let w := quarterRound w 0 5 10 15
  let w := quarterRound w 1 6 11 12
  let w := quarterRound w 2 7 8 13
  quarterRound w 3 4 9 14

/-- The words from which a block is mixed: four constants, the key, the counter, the stream. -/
def input (key : Key) (counter : UInt64) : Vector UInt32 16 :=
  let k := key.words
  #v[0x61707865, 0x3320646e, 0x79622d32, 0x6b206574,
     k[0], k[1], k[2], k[3], k[4], k[5], k[6], k[7],
     counter.toUInt32, (counter >>> 32).toUInt32, 0, 0]

/-- The block with a given counter. -/
def block (key : Key) (counter : UInt64) : Block :=
  let start := input key counter
  let mixed := (List.range 6).foldl (fun w _ => doubleRound w) start
  ⟨Vector.zipWith (· + ·) mixed start⟩

/-- The word of the stream at a position. -/
def word (key : Key) (position : Nat) : UInt32 :=
  (block key (UInt64.ofNat (position / 16))).words.toList.getD (position % 16) 0

/-! ## Keys from seeds -/

/-- The next state of the seed generator. -/
def seedStep (s : UInt64) : UInt64 :=
  s * 6364136223846793005 + 11634580027462260723

/-- The word that a state of the seed generator gives: its high bits, mixed and rotated to the
right by the topmost five. -/
def seedWord (s : UInt64) : UInt32 :=
  let x := (((s >>> 18) ^^^ s) >>> 27).toUInt32
  let r := (s >>> 59).toUInt32
  if r = 0 then x else (x >>> r) ||| (x <<< (32 - r))

/-- The state after `n` steps. -/
def seedState (seed : UInt64) : Nat → UInt64
  | 0 => seed
  | n + 1 => seedStep (seedState seed n)

/-- The key grown from a seed: the words of its next eight states. -/
def Key.ofSeed (seed : UInt64) : Key :=
  ⟨Vector.ofFn fun i => seedWord (seedState seed (i.val + 1))⟩

end ProgressiveSearch.ChaCha
