import ProgressiveSearch.Text.Utf8

/-!
# Addresses on the network

Which texts are addresses that an HTTP client takes: a path alone; a host alone, possibly with a
user before it and a number behind it; or a scheme, a host and, optionally, a path and a query. A
fragment at the end is left unread.
-/
namespace ProgressiveSearch.Text.Uri

/-- The longest address, in bytes. -/
def maxLength : Nat := 65534

/-- The longest name of a scheme. -/
def maxSchemeLength : Nat := 64

/-- The most colons that can stand together, in the notation of the longest host. -/
def maxColons : Nat := 8

/-- A character of a scheme. -/
def isSchemeChar (c : Char) : Bool :=
  c.isAlphanum || c = '+' || c = '-' || c = '.' || c = '~'

/-- A character that may stand in a host, with a percent sign set apart. -/
def isHostChar (c : Char) : Bool :=
  c.isAlphanum || c ∈ ['!', '#', '$', '&', '\'', '(', ')', '*', '+', ',', '-', '.', '/', ':', ';',
    '=', '?', '@', '[', ']', '_', '~']

/-- A character that ends a host. -/
def endsHost (c : Char) : Bool := c = '/' || c = '?' || c = '#'

/-- A character that may stand in a path. Those that are not plain text are taken as they are. -/
def isPathChar (c : Char) : Bool :=
  let n := c.toNat
  n = 0x21 || c = '"' || (0x24 ≤ n && n ≤ 0x3B) || n = 0x3D || (0x40 ≤ n && n ≤ 0x5F) ||
    (0x61 ≤ n && n ≤ 0x7E) || 0x80 ≤ n

/-- A character that may stand in a query. -/
def isQueryChar (c : Char) : Bool :=
  let n := c.toNat
  n = 0x21 || (0x24 ≤ n && n ≤ 0x3B) || n = 0x3D || (0x3F ≤ n && n ≤ 0x7E) || 0x80 ≤ n

/-- What has been seen of a host. -/
structure HostScan where
  colons : Nat
  opened : Bool
  closed : Bool
  percent : Bool
  /-- The last character was the sign that ends a user. -/
  afterUser : Bool

/-- Nothing has been seen of a host. -/
def HostScan.start : HostScan := ⟨0, false, false, false, false⟩

/-- One more character of a host, if it may stand there. -/
def HostScan.next? (s : HostScan) (c : Char) : Option HostScan :=
  let s := { s with afterUser := false }
  if c = ':' then
    if maxColons ≤ s.colons then none else some { s with colons := s.colons + 1 }
  else if c = '[' then
    if s.percent || s.opened then none else some { s with opened := true }
  else if c = ']' then
    if !s.opened || s.closed then none
    else some { s with closed := true, colons := 0, percent := false }
  else if c = '@' then some { s with colons := 0, percent := false, afterUser := true }
  else if c = '%' then some { s with percent := true }
  else if isHostChar c then some s
  else none

/-- A host that may end here. -/
def HostScan.isWhole (s : HostScan) : Bool :=
  s.opened == s.closed && s.colons ≤ 1 && !s.afterUser && !s.percent

/-- A text is a host, possibly an empty one. -/
def isHost (cs : List Char) : Bool :=
  match cs.foldlM HostScan.next? HostScan.start with
  | some s => s.isWhole
  | none => false

/-- A text is a path, with a query or without, up to the fragment. -/
def isPath (cs : List Char) : Bool :=
  let path := cs.takeWhile fun c => c ≠ '?' && c ≠ '#'
  let rest := cs.dropWhile fun c => c ≠ '?' && c ≠ '#'
  path.all isPathChar &&
    match rest with
    | '?' :: query => (query.takeWhile (· ≠ '#')).all isQueryChar
    | _ => true

/-- What an address begins with. -/
inductive Head where
  /-- A scheme of this length, and the sign behind it. -/
  | scheme (length : Nat)
  | plain
  | tooLong
  deriving DecidableEq, Repr

/-- Looks for a scheme. -/
def head (cs : List Char) : Head :=
  let name := cs.takeWhile isSchemeChar
  match cs.dropWhile isSchemeChar with
  | ':' :: '/' :: '/' :: _ =>
    if cs.length ≤ 3 then .plain
    else if maxSchemeLength < name.length then .tooLong
    else .scheme name.length
  | _ => .plain

/-- A text is an address. -/
def isValid (s : String) : Bool :=
  let cs := s.toList
  if maxLength < byteCount s then false
  else if cs.isEmpty then false
  else if cs.head? = some '/' then isPath cs
  else
    match head cs with
    | .tooLong => false
    | .plain => !cs.any endsHost && isHost cs
    | .scheme n =>
      let rest := cs.drop (n + 3)
      let host := rest.takeWhile fun c => !endsHost c
      !host.isEmpty && isHost host && isPath (rest.dropWhile fun c => !endsHost c)

end ProgressiveSearch.Text.Uri
