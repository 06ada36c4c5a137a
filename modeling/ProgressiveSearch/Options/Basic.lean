import ProgressiveSearch.Text.Digits
import ProgressiveSearch.Text.Headline
import ProgressiveSearch.Text.Terminal
import ProgressiveSearch.Word

/-!
# Options

A program's options have long names, written behind two dashes. A flag is given or not; every other
option takes a value, which is text or a number. An option may be tied to a variable of the
environment, which is looked at when the option is not given. `Options ι` describes the options of a
program, one for each inhabitant of `ι` that it lists, in the order in which their variables are
looked at.
-/
namespace ProgressiveSearch.Options

/-- What an option takes. -/
inductive Kind where
  | flag
  | text
  /-- A number from zero to a bound. -/
  | unsigned (bound : Nat)
  /-- A number from zero to a bound, which is read as one with a sign and then compared. -/
  | counted (bound : Nat)
  deriving DecidableEq, Repr

/-- What an option was given. -/
inductive Value where
  | flag (b : Bool)
  | text (s : String)
  | number (n : Nat)
  deriving DecidableEq, Repr

/-- Why a text is not a value of the wanted kind. -/
inductive ValueFault where
  | number (fault : Text.NumberFault)
  | outside (n : Int) (bound : Nat)
  /-- It is neither of the two words that a flag can have. -/
  | notBoolean
  deriving DecidableEq, Repr

/-- Reads a value. -/
def Kind.read (kind : Kind) (s : String) : Except ValueFault Value :=
  match kind with
  | .flag =>
    if s = "true" then .ok (.flag true)
    else if s = "false" then .ok (.flag false)
    else .error .notBoolean
  | .text => .ok (.text s)
  | .unsigned bound =>
    match Text.readUnsigned bound s with
    | .ok n => .ok (.number n)
    | .error fault => .error (.number fault)
  | .counted bound =>
    match Text.readSigned Word.max63 s with
    | .error fault => .error (.number fault)
    | .ok n =>
      if 0 ≤ n ∧ n.toNat ≤ bound then .ok (.number n.toNat) else .error (.outside n bound)

/-- An option of a program. -/
structure Spec where
  name : String
  /-- A single letter that stands for the name behind one dash. -/
  short : Option Char
  /-- The variable that is looked at when the option is not given. -/
  variableName : Option String
  kind : Kind
  deriving DecidableEq, Repr

namespace Spec

/-- An option with a long name only. -/
def long (name : String) (variableName : Option String) (kind : Kind) : Spec where
  name
  short := none
  variableName
  kind

/-- The character that stands for one of a name where it names a value. -/
def placeholderChar (c : Char) : Char := if c = '-' then '_' else c.toUpper

/-- How an option is shown: with a name for its value unless it is a flag. -/
def shown (s : Spec) : String :=
  match s.kind with
  | .flag => "--" ++ s.name
  | _ => "--" ++ s.name ++ " <" ++ String.ofList (s.name.toList.map placeholderChar) ++ ">"

end Spec

/-- What is said about a program when it is asked to tell about itself. -/
structure About where
  program : String
  version : String
  /-- The line shown for the short question. -/
  brief : String
  /-- The first line shown for the long question. -/
  full : String
  deriving DecidableEq, Repr

/-- Why a command line is not followed. -/
inductive Halt where
  /-- Help is asked for, in brief or in full. -/
  | help (brief : Bool)
  | version
  /-- There is no such option, or no place for an argument without a name. -/
  | unexpected (argument : String)
  /-- A flag is given a value. -/
  | unneeded (value shown : String)
  /-- An option lacks its value. -/
  | missing (shown : String)
  /-- An option is given twice. -/
  | repeated (shown : String)
  | invalid (value shown : String) (fault : ValueFault)
  deriving DecidableEq, Repr

/-- The sentence that reports why a value is not taken. -/
def ValueFault.message : ValueFault → String
  | .number fault => fault.message
  | .outside n bound => toString n ++ " is not in 0..=" ++ toString bound
  | .notBoolean => ""

namespace Halt

/-- The whole text that answers a command line that is not followed. What it repeats of the command
line is shown without anything that a terminal would take as a command. -/
def report (about : About) : Halt → String
  | .help brief => if brief then about.brief else about.full
  | .version => about.program ++ " " ++ about.version
  | .unexpected argument =>
    "error: unexpected argument '" ++ Text.withoutCommands argument ++ "' found"
  | .unneeded value shown =>
    "error: unexpected value '" ++ Text.withoutCommands value ++ "' for '" ++ shown ++
      "' found; no more were expected"
  | .missing shown => "error: a value is required for '" ++ shown ++ "' but none was supplied"
  | .repeated shown =>
    "error: the argument '" ++ shown ++ "' cannot be used multiple times"
  | .invalid value shown .notBoolean =>
    "error: invalid value '" ++ Text.withoutCommands value ++ "' for '" ++ shown ++ "'"
  | .invalid value shown fault =>
    "error: invalid value '" ++ Text.withoutCommands value ++ "' for '" ++ shown ++ "': " ++
      fault.message

/-- What is reported of the answer to a command line that is not followed. -/
def message (about : About) (h : Halt) : String := Text.headline (h.report about)

/-- The program was asked about itself, and nothing is wrong. -/
def isQuestion : Halt → Bool
  | .help _ | .version => true
  | _ => false

end Halt

end ProgressiveSearch.Options
