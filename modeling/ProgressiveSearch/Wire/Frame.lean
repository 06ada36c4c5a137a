import ProgressiveSearch.Stream
import ProgressiveSearch.Wire.Message

/-!
# Frames

The body of a request is a sequence of frames: a flag byte, a length in four bytes, the highest
first, and a message of that length. A body arrives in pieces that need not agree with frames. The
reader takes a header off as soon as it is complete, so a body that ends right behind a header ends
like one that ends behind a frame.
-/
namespace ProgressiveSearch.Wire

/-- What has arrived of a body and is not a message yet. -/
structure Body where
  pending : Bytes
  /-- The length announced by a header whose message is not complete. -/
  expected : Option Nat
  deriving Repr

namespace Body

/-- A body of which nothing has arrived. -/
def empty : Body := ⟨[], none⟩

/-- The longest message that is accepted. -/
def maxLength : Nat := 4194304

/-- Why a header is refused. -/
inductive Refusal where
  | compressed
  | invalidFlag (flag : Nat)
  | tooLong (length : Nat)
  deriving DecidableEq, Repr

/-- The status with which a refused header ends the call. -/
def Refusal.status : Refusal → Status
  | .compressed =>
    .of .internal ("protocol error: received message with compressed-flag but no grpc-encoding " ++
      "was specified")
  | .invalidFlag flag =>
    .of .internal ("protocol error: received message with invalid compression flag: " ++
      toString flag ++ " (valid flags are 0 and 1), while sending request")
  | .tooLong length =>
    .of .outOfRange ("Error, decoded message length too large: found " ++ toString length ++
      " bytes, the limit is: " ++ toString maxLength ++ " bytes")

/-- The length that a header announces. -/
def headerLength (flag : UInt8) (l3 l2 l1 l0 : UInt8) : Except Refusal Nat :=
  let length := ((l3.toNat * 256 + l2.toNat) * 256 + l1.toNat) * 256 + l0.toNat
  if flag = 1 then .error .compressed
  else if flag ≠ 0 then .error (.invalidFlag flag.toNat)
  else if maxLength < length then .error (.tooLong length)
  else .ok length

/-- Takes a header off, if there is a complete one. -/
def takeHeader (b : Body) : Except Refusal Body :=
  match b.expected, b.pending with
  | none, flag :: l3 :: l2 :: l1 :: l0 :: rest =>
    (headerLength flag l3 l2 l1 l0).map fun n => ⟨rest, some n⟩
  | _, _ => .ok b

/-- A context, or the status with which its bytes end the call. -/
def arrival (payload : Bytes) : Arrival :=
  match Context.decode payload with
  | .ok c => .context c
  | .error e => .failed (.of .internal e.message)

/-- What arrives next, if it is complete, and the body behind it. -/
def next? (b : Body) : Arrival × Body ⊕ Body :=
  match b.takeHeader with
  | .error refusal => .inl (.failed refusal.status, b)
  | .ok b =>
    match b.expected with
    | none => .inr b
    | some n =>
      if b.pending.length < n then .inr b
      else .inl (arrival (b.pending.take n), ⟨b.pending.drop n, none⟩)

/-- Everything that is complete, up to the first failure, and the body behind it. No body holds more
messages than `count`, which is above the number of its bytes. -/
def arrivals : Nat → Body → List Arrival × Body
  | 0, b => ([], b)
  | count + 1, b =>
    match b.next? with
    | .inr b => ([], b)
    | .inl (.failed status, b) => ([.failed status], b)
    | .inl (.context c, b) =>
      let (more, b) := arrivals count b
      (.context c :: more, b)

/-- Takes in a piece of the body. -/
def feed (b : Body) (piece : Bytes) : List Arrival × Body :=
  let b := { b with pending := b.pending ++ piece }
  b.arrivals (b.pending.length + 1)

/-- What the end of the body brings: nothing, or a failure when bytes are left over. -/
def ending (b : Body) : Option Status :=
  if b.pending.isEmpty then none else some (.of .internal "Unexpected EOF decoding stream.")

end Body

/-- The frame of a message. -/
def frame (payload : Bytes) : Bytes :=
  let digit (i : Nat) := UInt8.ofNat (payload.length / Nat.pow 256 i % 256)
  0 :: (List.range 4).reverse.map digit ++ payload

end ProgressiveSearch.Wire
