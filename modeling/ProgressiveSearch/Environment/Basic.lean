/-!
# Environments

The variables that a program finds when it starts. A variable that is there already is kept when
another value for it turns up.
-/
namespace ProgressiveSearch

/-- Named texts; the first of several with one name counts. -/
structure Environment where
  bindings : List (String × String)
  deriving Repr

namespace Environment

/-- An environment without variables. -/
def empty : Environment := ⟨[]⟩

/-- The value of a variable. -/
def get? (e : Environment) (name : String) : Option String := e.bindings.lookup name

/-- Adds a variable, unless there is one of this name. -/
def addIfAbsent (e : Environment) (name value : String) : Environment :=
  if (e.get? name).isSome then e else ⟨e.bindings ++ [(name, value)]⟩

/-- The value of a variable, nothing if it is not there. -/
def text (e : Environment) (name : String) : String := (e.get? name).getD ""

end Environment

end ProgressiveSearch
