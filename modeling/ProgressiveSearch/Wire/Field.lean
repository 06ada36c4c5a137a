import ProgressiveSearch.Text.Utf8
import ProgressiveSearch.Wire.Varint
import ProgressiveSearch.Word

/-!
# Fields on the wire

A message is a sequence of fields. Each begins with a key, which holds a field number and the form
of the payload, and goes on with the payload. A reader takes a field off the front of the bytes and
returns the bytes that are left; a field that no one knows is skipped by its form alone, groups
being skipped up to the end key that belongs to them.
-/
namespace ProgressiveSearch.Wire

/-- The form of a payload. -/
inductive WireType where
  | varint
  | fixed64
  | delimited
  | startGroup
  | endGroup
  | fixed32
  deriving DecidableEq, Repr

namespace WireType

/-- The number of a form inside a key. -/
def number : WireType → Nat
  | .varint => 0
  | .fixed64 => 1
  | .delimited => 2
  | .startGroup => 3
  | .endGroup => 4
  | .fixed32 => 5

/-- The form with a number. -/
def ofNumber? : Nat → Option WireType
  | 0 => some .varint
  | 1 => some .fixed64
  | 2 => some .delimited
  | 3 => some .startGroup
  | 4 => some .endGroup
  | 5 => some .fixed32
  | _ => none

def name : WireType → String
  | .varint => "Varint"
  | .fixed64 => "SixtyFourBit"
  | .delimited => "LengthDelimited"
  | .startGroup => "StartGroup"
  | .endGroup => "EndGroup"
  | .fixed32 => "ThirtyTwoBit"

end WireType

/-- Why bytes are not a message. -/
inductive Reason where
  | invalidVarint
  | invalidKey (key : Nat)
  | invalidWireType (value : Nat)
  | invalidTag
  | unexpectedType (found expected : WireType)
  | underflow
  | lengthExceeded
  | invalidText
  | unexpectedEndGroup
  | tooDeep
  deriving DecidableEq, Repr

/-- The sentence that gives a reason. -/
def Reason.message : Reason → String
  | .invalidVarint => "invalid varint"
  | .invalidKey key => "invalid key value: " ++ toString key
  | .invalidWireType value => "invalid wire type value: " ++ toString value
  | .invalidTag => "invalid tag value: 0"
  | .unexpectedType found expected =>
    "invalid wire type: " ++ found.name ++ " (expected " ++ expected.name ++ ")"
  | .underflow => "buffer underflow"
  | .lengthExceeded => "delimited length exceeded"
  | .invalidText => "invalid string value: data is not UTF-8 encoded"
  | .unexpectedEndGroup => "unexpected end group tag"
  | .tooDeep => "recursion limit reached"

/-- A field of a message of some kind, by the names of both. -/
structure Place where
  message : String
  field : String
  deriving DecidableEq, Repr

/-- Why bytes are not a message, and the known fields around the fault, the innermost first. -/
structure DecodeError where
  reason : Reason
  path : List Place
  deriving DecidableEq, Repr

/-- The text of an error: the fields around the fault and the reason. -/
def DecodeError.message (e : DecodeError) : String :=
  "failed to decode Protobuf message: " ++
    String.join (e.path.map fun p => p.message ++ "." ++ p.field ++ ": ") ++ e.reason.message

/-- The result of taking something off the front: a value and the bytes that are left. -/
abbrev Read (α : Type) := Except Reason (α × Bytes)

/-- A field's key: its number and the form of its payload. -/
structure Key where
  tag : Nat
  type : WireType
  deriving DecidableEq, Repr

/-- The bytes of a key. -/
def Key.bytes (k : Key) : Bytes := varint (8 * k.tag + k.type.number)

/-- Reads a number. -/
def readVarint (bytes : Bytes) : Read Nat :=
  match readVarint? bytes with
  | some r => .ok r
  | none => .error .invalidVarint

/-- Reads a key: a number below `2 ^ 32`, whose low three bits are the form and whose other bits are
the field number, which is not zero. -/
def readKey (bytes : Bytes) : Read Key :=
  match readVarint bytes with
  | .error e => .error e
  | .ok (n, rest) =>
    if Word.size32 ≤ n then .error (.invalidKey n)
    else
      match WireType.ofNumber? (n % 8) with
      | none => .error (.invalidWireType (n % 8))
      | some type => if n / 8 = 0 then .error .invalidTag else .ok (⟨n / 8, type⟩, rest)

/-- Takes a number of bytes off the front. -/
def readExactly (n : Nat) (bytes : Bytes) : Read Bytes :=
  if bytes.length < n then .error .underflow else .ok (bytes.take n, bytes.drop n)

/-- Takes off a length and that many bytes. -/
def readDelimited (bytes : Bytes) : Read Bytes :=
  match readVarint bytes with
  | .error e => .error e
  | .ok (n, rest) => readExactly n rest

/-- Accepts a key only if it announces the form that its field has. -/
def expectType (expected : WireType) (k : Key) : Except Reason Unit :=
  if k.type = expected then .ok () else .error (.unexpectedType k.type expected)

/-- Reads the payload of a text field. -/
def readText (bytes : Bytes) : Read String :=
  match readDelimited bytes with
  | .error e => .error e
  | .ok (payload, rest) =>
    match Text.ofUtf8? payload with
    | some s => .ok (s, rest)
    | none => .error .invalidText

/-! ## Unknown fields -/

/-- How many groups and messages may be nested. -/
def nestingLimit : Nat := 100

/-- Skips fields up to the end key of the group `tag`, each by `skipField`. No group has more fields
than `count`, the number of bytes that are left. -/
def skipGroup (skipField : Key → Bytes → Except Reason Bytes) (tag : Nat) :
    Nat → Bytes → Except Reason Bytes
  | 0, _ => .error .invalidVarint
  | count + 1, bytes =>
    match readKey bytes with
    | .error e => .error e
    | .ok (key, rest) =>
      if key.type = .endGroup then
        if key.tag = tag then .ok rest else .error .unexpectedEndGroup
      else
        match skipField key rest with
        | .error e => .error e
        | .ok rest => skipGroup skipField tag count rest

/-- Skips the payload of a field, at most `levels` deep. -/
def skipField : Nat → Key → Bytes → Except Reason Bytes
  | 0, _, _ => .error .tooDeep
  | levels + 1, key, bytes =>
    match key.type with
    | .varint => (readVarint bytes).map (·.2)
    | .fixed64 => (readExactly 8 bytes).map (·.2)
    | .delimited => (readDelimited bytes).map (·.2)
    | .startGroup => skipGroup (skipField levels) key.tag bytes.length bytes
    | .endGroup => .error .unexpectedEndGroup
    | .fixed32 => (readExactly 4 bytes).map (·.2)

/-! ## Sequences of fields -/

/-- Names the field in which a fault lies. -/
def within (message field : String) {α : Type} (r : Read α) : Except DecodeError (α × Bytes) :=
  r.mapError fun reason => ⟨reason, [⟨message, field⟩]⟩

/-- A fault that lies in no known field of the message at hand. -/
def outside {α : Type} (r : Except Reason α) : Except DecodeError α :=
  r.mapError fun reason => ⟨reason, []⟩

/-- Reads fields into a message until no more than `limit` bytes are left. There are no more fields
than `count`, the number of bytes. -/
def readFields {α : Type} (readField : Key → α → Bytes → Except DecodeError (α × Bytes))
    (limit : Nat) : Nat → α → Bytes → Except DecodeError (α × Bytes)
  | 0, m, bytes => .ok (m, bytes)
  | count + 1, m, bytes =>
    if bytes.length ≤ limit then .ok (m, bytes)
    else
      match outside (readKey bytes) with
      | .error e => .error e
      | .ok (key, rest) =>
        match readField key m rest with
        | .error e => .error e
        | .ok (m, rest) => readFields readField limit count m rest

end ProgressiveSearch.Wire
