import ProgressiveSearch.Options.Basic

/-!
# Reading a command line

Arguments are read from the left, and the first fault decides. An option whose value is an argument
of its own stays **pending** until the next option or the end: only then is it looked at whether it
has a value, whether it is there for the first time, and whether the value is good. An argument
that has no meaning, and a flag with a value, are refused before that. After the arguments the
variables of the options that were not given are read.
-/
namespace ProgressiveSearch.Options

variable {ι : Type} [DecidableEq ι]

/-- The options of a program: which there are, in order, and what each is. -/
structure Table (ι : Type) where
  options : List ι
  spec : ι → Spec

/-- What the options were given. -/
abbrev Found (ι : Type) := List (ι × Value)

namespace Found

/-- The value of an option. -/
def get? (f : Found ι) (o : ι) : Option Value := f.lookup o

/-- The option is there. -/
def has (f : Found ι) (o : ι) : Bool := (f.get? o).isSome

/-- The number of an option, or another one if it has none. -/
def number (f : Found ι) (o : ι) (fallback : Nat) : Nat :=
  match f.get? o with
  | some (.number n) => n
  | _ => fallback

/-- The number of an option, if it has one. -/
def number? (f : Found ι) (o : ι) : Option Nat :=
  match f.get? o with
  | some (.number n) => some n
  | _ => none

/-- The text of an option, or another one if it has none. -/
def text (f : Found ι) (o : ι) (fallback : String) : String :=
  match f.get? o with
  | some (.text s) => s
  | _ => fallback

/-- Whether a flag is set. -/
def flag (f : Found ι) (o : ι) : Bool :=
  match f.get? o with
  | some (.flag b) => b
  | _ => false

end Found

/-- A long name, or a letter, that a program knows. -/
inductive Known (ι : Type) where
  | option (o : ι)
  | help
  | version
  deriving DecidableEq

namespace Table

/-- What a long name stands for. -/
def byName (t : Table ι) (name : String) : Option (Known ι) :=
  match t.options.find? fun o => (t.spec o).name = name with
  | some o => some (.option o)
  | none => if name = "help" then some .help else if name = "version" then some .version else none

/-- What a letter stands for. -/
def byLetter (t : Table ι) (c : Char) : Option (Known ι) :=
  match t.options.find? fun o => (t.spec o).short = some c with
  | some o => some (.option o)
  | none => if c = 'h' then some .help else if c = 'V' then some .version else none

/-- How an option is shown. -/
def shown (t : Table ι) (o : ι) : String := (t.spec o).shown

end Table

/-- What has been read of a command line. -/
structure Reader (ι : Type) where
  found : Found ι
  /-- An option that has not been looked at, and the argument that is its value. -/
  pending : Option (ι × Option String)
  /-- Two dashes have been met: no later argument is an option. -/
  trailing : Bool

namespace Reader

/-- Nothing has been read. -/
def start : Reader ι := ⟨[], none, false⟩

/-- Takes an option with its value, if this is the first time and the value is good. -/
def store (t : Table ι) (r : Reader ι) (o : ι) (value : String) : Except Halt (Reader ι) :=
  if r.found.has o then .error (.repeated (t.shown o))
  else
    match (t.spec o).kind.read value with
    | .error fault => .error (.invalid value (t.shown o) fault)
    | .ok v => .ok { r with found := r.found ++ [(o, v)] }

/-- Looks at the pending option. -/
def settle (t : Table ι) (r : Reader ι) : Except Halt (Reader ι) :=
  match r.pending with
  | none => .ok r
  | some (o, none) => .error (.missing (t.shown o))
  | some (o, some value) => store t { r with pending := none } o value

/-- Takes a flag. -/
def setFlag (t : Table ι) (r : Reader ι) (o : ι) : Except Halt (Reader ι) := do
  let r ← r.settle t
  if r.found.has o then .error (.repeated (t.shown o))
  else .ok { r with found := r.found ++ [(o, .flag true)] }

/-- Tells about the program, unless the pending option is at fault. -/
def tell (t : Table ι) (r : Reader ι) (answer : Halt) : Except Halt (Reader ι) := do
  let _ ← r.settle t
  .error answer

/-- Reads a long name and the value attached to it, if there is one. -/
def readLong (t : Table ι) (r : Reader ι) (name : String) (attached : Option String) :
    Except Halt (Reader ι) :=
  match t.byName name, attached with
  | none, _ => .error (.unexpected ("--" ++ name))
  | some .help, none => r.tell t (.help false)
  | some .version, none => r.tell t .version
  | some .help, some value | some .version, some value => .error (.unneeded value ("--" ++ name))
  | some (.option o), attached =>
    match (t.spec o).kind, attached with
    | .flag, none => r.setFlag t o
    | .flag, some value => .error (.unneeded value (t.shown o))
    | _, some value => do (← r.settle t).store t o value
    | _, none => do return { (← r.settle t) with pending := some (o, none) }

/-- Reads letters behind a dash, one after the other. Letters stand for flags only. -/
def readLetters (t : Table ι) (r : Reader ι) : List Char → Except Halt (Reader ι)
  | [] => .ok r
  | c :: rest =>
    match t.byLetter c with
    | none => .error (.unexpected (String.ofList ['-', c]))
    | some .help => r.tell t (.help true)
    | some .version => r.tell t .version
    | some (.option o) => do (← r.setFlag t o).readLetters t rest

/-- Reads an argument that names no option: the value of the pending one, if it has none yet. -/
def readPlain (r : Reader ι) (argument : String) : Except Halt (Reader ι) :=
  match r.pending with
  | some (o, none) => .ok { r with pending := some (o, some argument) }
  | _ => .error (.unexpected argument)

/-- The part of a text before the first equals sign, and the part behind it. -/
def splitAttached (cs : List Char) : String × Option String :=
  let name := String.ofList (cs.takeWhile (· ≠ '='))
  match cs.dropWhile (· ≠ '=') with
  | [] => (name, none)
  | _ :: value => (name, some (String.ofList value))

/-- Reads an argument. -/
def read (t : Table ι) (r : Reader ι) (argument : String) : Except Halt (Reader ι) :=
  if r.trailing then .error (.unexpected argument)
  else
    match argument.toList with
    | ['-', '-'] => .ok { r with trailing := true }
    | '-' :: '-' :: rest =>
      let (name, attached) := splitAttached rest
      r.readLong t name attached
    | '-' :: c :: rest => r.readLetters t (c :: rest)
    | _ => r.readPlain argument

/-- Reads arguments from the left. -/
def readAll (t : Table ι) : Reader ι → List String → Except Halt (Reader ι)
  | r, [] => r.settle t
  | r, argument :: rest => do (← r.read t argument).readAll t rest

/-- An empty value of a flag counts as missing. -/
def variableFault (shown value : String) (fault : ValueFault) : Halt :=
  if fault = .notBoolean ∧ value.isEmpty then .missing shown else .invalid value shown fault

/-- Reads the variables of options that were not given. -/
def readVariables (t : Table ι) (env : String → Option String) :
    Found ι → List ι → Except Halt (Found ι)
  | found, [] => .ok found
  | found, o :: rest =>
    if found.has o then readVariables t env found rest
    else
      match (t.spec o).variableName.bind env with
      | none => readVariables t env found rest
      | some value =>
        match (t.spec o).kind.read value with
        | .error fault => .error (variableFault (t.shown o) value fault)
        | .ok v => readVariables t env (found ++ [(o, v)]) rest

end Reader

/-- What a command line and an environment give to the options of a program. -/
def read (t : Table ι) (arguments : List String) (env : String → Option String) :
    Except Halt (Found ι) := do
  let r ← Reader.start.readAll t arguments
  Reader.readVariables t env r.found t.options

end ProgressiveSearch.Options
