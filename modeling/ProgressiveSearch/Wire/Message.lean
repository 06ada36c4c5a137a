import ProgressiveSearch.Message
import ProgressiveSearch.Wire.Field
import ProgressiveSearch.Word

/-!
# Messages on the wire

The wire form of contexts, items and batches. Fields are written in the order of their numbers and
left out when they hold their default, items never; a zero of either sign is the default score. A
reader starts from the default message: a later text, score or revision replaces an earlier one,
items are appended, unknown fields change nothing.

What reads and writes messages is generated from their schema when the program is built. The
definitions here follow the published encoding of such schemas and stand for that code where bytes
come in from outside; nothing is proved from them.
-/
namespace ProgressiveSearch

namespace Wire

/-- A length and as many bytes. -/
def delimited (payload : Bytes) : Bytes := varint payload.length ++ payload

/-- A text field, left out when empty. -/
def textField (tag : Nat) (s : String) : Bytes :=
  if s.isEmpty then [] else Key.bytes ⟨tag, .delimited⟩ ++ delimited (Text.utf8 s)

/-- A number field, left out when zero. -/
def numberField (tag : Nat) (n : UInt32) : Bytes :=
  if n = 0 then [] else Key.bytes ⟨tag, .varint⟩ ++ varint n.toNat

/-- The eight bytes of a word, the lowest first. -/
def wordBytes (w : UInt64) : Bytes :=
  (List.range 8).map fun i => UInt8.ofNat (w.toNat / Nat.pow 256 i % 256)

/-- The word with these bytes, the lowest first. -/
def wordOfBytes (bytes : Bytes) : UInt64 :=
  UInt64.ofNat (bytes.foldr (fun b n => b.toNat + 256 * n) 0)

/-- A score that counts as the default: a zero of either sign. -/
def isDefaultScore (s : Score) : Bool := s.bits.toNat % Word.size63 = 0

/-- A score field, left out when zero. -/
def scoreField (tag : Nat) (s : Score) : Bytes :=
  if isDefaultScore s then [] else Key.bytes ⟨tag, .fixed64⟩ ++ wordBytes s.bits

/-- Reads the payload of a score field. -/
def readScore (bytes : Bytes) : Read Score :=
  match readExactly 8 bytes with
  | .error e => .error e
  | .ok (payload, rest) => .ok (⟨wordOfBytes payload⟩, rest)

/-- Reads the payload of a revision field: the low thirty-two bits of a number. -/
def readRevision (bytes : Bytes) : Read UInt32 :=
  match readVarint bytes with
  | .error e => .error e
  | .ok (n, rest) => .ok (UInt32.ofNat n, rest)

/-- Reads the payload of a known field after its key has been checked. -/
def readKnown {α : Type} (message field : String) (type : WireType) (read : Bytes → Read α)
    (key : Key) (bytes : Bytes) : Except DecodeError (α × Bytes) :=
  within message field <|
    match expectType type key with
    | .error e => .error e
    | .ok () => read bytes

/-- Skips a field of a message at `levels` levels from the nesting limit. -/
def readUnknown {α : Type} (levels : Nat) (key : Key) (m : α) (bytes : Bytes) :
    Except DecodeError (α × Bytes) :=
  outside ((skipField levels key bytes).map fun rest => (m, rest))

/-- Reads a whole message from bytes. -/
def readMessage {α : Type} (readField : Key → α → Bytes → Except DecodeError (α × Bytes))
    (default : α) (bytes : Bytes) : Except DecodeError α :=
  (readFields readField 0 bytes.length default bytes).map (·.1)

end Wire

open Wire

/-! ## Contexts -/

namespace Context

/-- The context without any field. -/
def blank : Context := ⟨"", "", ""⟩

/-- The wire form of a context. -/
def encode (c : Context) : Bytes :=
  textField 1 c.query ++ textField 2 c.subjectId ++ textField 3 c.refinement

/-- Reads one field of a context. -/
def readField (levels : Nat) (key : Key) (c : Context) (bytes : Bytes) :
    Except DecodeError (Context × Bytes) :=
  let text (field : String) := readKnown "RequestContext" field .delimited readText key bytes
  match key.tag with
  | 1 => (text "query").map fun (s, rest) => ({ c with query := s }, rest)
  | 2 => (text "subject_id").map fun (s, rest) => ({ c with subjectId := s }, rest)
  | 3 => (text "refinement").map fun (s, rest) => ({ c with refinement := s }, rest)
  | _ => readUnknown levels key c bytes

/-- Reads a context. -/
def decode (bytes : Bytes) : Except DecodeError Context :=
  readMessage (readField nestingLimit) blank bytes

end Context

/-! ## Items -/

namespace Item

/-- The item without any field. -/
def blank : Item := ⟨"", "", .zero⟩

/-- The wire form of an item. -/
def encode (i : Item) : Bytes :=
  textField 1 i.subjectId ++ textField 2 i.itemId ++ scoreField 3 i.score

/-- Reads one field of an item. -/
def readField (levels : Nat) (key : Key) (i : Item) (bytes : Bytes) :
    Except DecodeError (Item × Bytes) :=
  let text (field : String) := readKnown "ResponseItem" field .delimited readText key bytes
  match key.tag with
  | 1 => (text "subject_id").map fun (s, rest) => ({ i with subjectId := s }, rest)
  | 2 => (text "item_id").map fun (s, rest) => ({ i with itemId := s }, rest)
  | 3 =>
    (readKnown "ResponseItem" "score" .fixed64 readScore key bytes).map fun (s, rest) =>
      ({ i with score := s }, rest)
  | _ => readUnknown levels key i bytes

/-- Reads an item. -/
def decode (bytes : Bytes) : Except DecodeError Item :=
  readMessage (readField nestingLimit) blank bytes

/-- Reads the payload of an item field. The item has to end where its length says, but each of its
fields is read as far as the input reaches. -/
def readPayload (levels : Nat) (bytes : Bytes) : Except DecodeError (Item × Bytes) :=
  match levels with
  | 0 => .error ⟨.tooDeep, []⟩
  | levels + 1 =>
    match outside (readVarint bytes) with
    | .error e => .error e
    | .ok (n, rest) =>
      if rest.length < n then .error ⟨.underflow, []⟩
      else
        let limit := rest.length - n
        match readFields (readField levels) limit rest.length blank rest with
        | .error e => .error e
        | .ok (i, rest) =>
          if rest.length = limit then .ok (i, rest) else .error ⟨.lengthExceeded, []⟩

end Item

/-! ## Batches -/

namespace Batch

/-- The batch without any field. -/
def blank : Batch := ⟨[], 0⟩

/-- The field of one item. -/
def itemField (i : Item) : Bytes :=
  Key.bytes ⟨1, .delimited⟩ ++ delimited i.encode

/-- The wire form of a batch. -/
def encode (b : Batch) : Bytes :=
  b.items.flatMap itemField ++ numberField 2 b.revision

/-- Adds an enclosing field to the path of a fault. -/
def inside (place : Place) {α : Type} (r : Except DecodeError α) : Except DecodeError α :=
  r.mapError fun e => { e with path := e.path ++ [place] }

/-- Reads an item field: its key announces a length. -/
def readItem (levels : Nat) (key : Key) (bytes : Bytes) : Except DecodeError (Item × Bytes) :=
  inside ⟨"ResponseBatch", "items"⟩ <|
    match outside (expectType .delimited key) with
    | .error e => .error e
    | .ok () => Item.readPayload levels bytes

/-- Reads one field of a batch. -/
def readField (levels : Nat) (key : Key) (b : Batch) (bytes : Bytes) :
    Except DecodeError (Batch × Bytes) :=
  match key.tag with
  | 1 => (readItem levels key bytes).map fun (i, rest) => ({ b with items := b.items ++ [i] }, rest)
  | 2 =>
    (readKnown "ResponseBatch" "revision" .varint readRevision key bytes).map fun (r, rest) =>
      ({ b with revision := r }, rest)
  | _ => readUnknown levels key b bytes

/-- Reads a batch. -/
def decode (bytes : Bytes) : Except DecodeError Batch :=
  readMessage (readField nestingLimit) blank bytes

end Batch

end ProgressiveSearch
