import ProgressiveSearch.Program.FileTree
import ProgressiveSearch.Text.Digits

/-!
# Binding

Where a server can listen. A socket in the file system is made under a path at whose end nothing
stands yet, in a directory that is there; an address on the network ends with a colon and a number.
-/
namespace ProgressiveSearch.Program

/-- Why a server cannot listen. -/
inductive BindFault where
  | invalidAddress
  | invalidNumber
  /-- The path leads to no directory in which the socket could be. -/
  | astray (fault : PathFault)
  | inUse
  | pathTooLong
  deriving DecidableEq, Repr

def BindFault.message : BindFault → String
  | .invalidAddress => "invalid socket address"
  | .invalidNumber => "invalid port value"
  | .astray fault => fault.message
  | .inUse => "Address already in use (os error 98)"
  | .pathTooLong => "path must be shorter than SUN_LEN"

/-- The place of a socket that is made under a path. A path that ends with a slash is that of a
directory, and no socket can be made there. -/
def FileTree.bindSocket (t : FileTree) (s : String) : Except BindFault Place :=
  let path := Path.ofText s
  if FileTree.isTooLong s then .error .pathTooLong
  else
    match t.followPath path with
    | .error fault => .error (.astray fault)
    | .ok place =>
      if !path.isNamed || t.holds place then .error .inUse
      else if path.trailing then .error (.astray .noSuchPlace)
      else .ok place

/-- The largest number of an address on the network. -/
def maxAddressNumber : Nat := 65535

/-- Why nothing can listen at an address on the network, if nothing can. -/
def networkFault? (address : String) : Option BindFault :=
  match address.toList.reverse.span (· ≠ ':') with
  | (_, []) => some .invalidAddress
  | (digits, _) =>
    match Text.readUnsigned maxAddressNumber (String.ofList digits.reverse) with
    | .ok _ => none
    | .error _ => some .invalidNumber

end ProgressiveSearch.Program
