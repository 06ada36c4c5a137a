import ProgressiveSearch.Text.Utf8

/-!
# File trees

Directories, with files in them, and the paths that lead through them. A path is followed one name
at a time, from the root or from the working directory, and can be followed only through
directories. What stands at its end, and whether anything does, is another matter.
-/
namespace ProgressiveSearch.Program

/-- A place in a tree: the names on the way to it from the root. -/
abbrev Place := List String

/-- A path as it is written. -/
structure Path where
  /-- It begins at the root. -/
  absolute : Bool
  /-- The names between slashes. -/
  names : List String
  /-- It ends with a slash. -/
  trailing : Bool
  deriving DecidableEq, Repr

namespace Path

/-- The names between slashes. Empty ones lead nowhere else, and are left out. -/
def between (cs : List Char) : List String :=
  ((cs.splitBy fun a b => a ≠ '/' && b ≠ '/').filter (· ≠ ['/'])).map String.ofList

/-- Reads a path. -/
def ofText (s : String) : Path where
  absolute := s.toList.head? = some '/'
  names := between s.toList
  trailing := s.toList.getLast? = some '/'

/-- The path ends with a name that is neither the root's nor one that any directory has for itself
and for the one above. -/
def isNamed (p : Path) : Bool :=
  p.names.getLast?.any fun name => name ≠ "." && name ≠ ".."

end Path

/-- Why a path cannot be followed to its end. -/
inductive PathFault where
  | noSuchPlace
  | notADirectory
  deriving DecidableEq, Repr

def PathFault.message : PathFault → String
  | .noSuchPlace => "No such file or directory (os error 2)"
  | .notADirectory => "Not a directory (os error 20)"

/-- Directories and files. -/
structure FileTree where
  directories : List Place
  files : List Place
  deriving Repr

namespace FileTree

/-- The working directory. -/
def working : Place := ["tmp", "work"]

/-- The directories that are taken to be everywhere. -/
def standingDirectories : List Place :=
  [[], ["bin"], ["dev"], ["etc"], ["home"], ["lib"], ["opt"], ["proc"], ["root"], ["run"], ["sbin"],
    ["sys"], ["tmp"], ["usr"], ["var"]]

/-- The files that are taken to be everywhere. -/
def standingFiles : List Place :=
  [["dev", "null"], ["etc", "hosts"], ["etc", "passwd"]]

/-- The tree with an empty working directory. -/
def empty : FileTree where
  directories := working :: standingDirectories
  files := standingFiles

/-- Adds a file. -/
def add (t : FileTree) (p : Place) : FileTree :=
  if p ∈ t.files then t else { t with files := p :: t.files }

/-- The place of a name in the working directory. -/
def atWork (name : String) : Place := working ++ [name]

/-- The tree with files of these names in the working directory. -/
def ofNames (names : List String) : FileTree := (names.map atWork).foldl add empty

/-- Something stands at a place. -/
def holds (t : FileTree) (p : Place) : Bool :=
  t.directories.contains p || t.files.contains p

/-- The names in the working directory that do not begin with a dot, in order. -/
def listing (t : FileTree) : List String :=
  let names := t.files.filterMap fun p => if p.dropLast = working then p.getLast? else none
  (names.filter fun name => name.toList.head? ≠ some '.').mergeSort fun a b => decide (a ≤ b)

/-! ## Following paths -/

/-- Where a name leads from a directory. Above the root is the root. -/
def next (here : Place) (name : String) : Place :=
  if name = "." then here else if name = ".." then here.dropLast else here ++ [name]

/-- Follows names from a place. -/
def follow (t : FileTree) : Place → List String → Except PathFault Place
  | here, [] => .ok here
  | here, name :: rest =>
    if t.directories.contains here then t.follow (next here name) rest
    else if t.files.contains here then .error .notADirectory
    else .error .noSuchPlace

/-- Follows a path to its end. -/
def followPath (t : FileTree) (path : Path) : Except PathFault Place :=
  t.follow (if path.absolute then [] else working) path.names

/-! ## Sockets -/

/-- The length, in bytes, from which a path is too long for a socket. -/
def socketPathLimit : Nat := 108

/-- The path is too long for a socket. -/
def isTooLong (s : String) : Bool := socketPathLimit ≤ Text.byteCount s

/-- A path leads to the socket at a place. -/
def leadsTo (t : FileTree) (socket : Place) (s : String) : Bool :=
  let path := Path.ofText s
  !isTooLong s && !path.trailing &&
    match t.followPath path with
    | .ok place => place = socket
    | .error _ => false

end FileTree

end ProgressiveSearch.Program
