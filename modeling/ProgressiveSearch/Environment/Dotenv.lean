import ProgressiveSearch.Environment.Basic
import ProgressiveSearch.Text.Alphanumeric

/-!
# Files of variables

A file of variables has one assignment a line: a name, an equals sign and a value. Blank lines and
lines that begin with `#` say nothing; the word `export` may stand before the name.

* A value ends at the first blank outside quotes. Only a comment may follow.
* Between single quotes all characters stand for themselves, line breaks included. Between double
  quotes, and outside quotes, a backslash takes the special meaning from the character behind it.
* A dollar sign outside single quotes stands for the value of the variable that follows, which may
  be put between braces.

Reading stops without a word at the first line that breaks these rules; what was read before it
counts. A value with a character that no variable can hold breaks the program down instead.
-/
namespace ProgressiveSearch.Environment.Dotenv

open Text (isBlankChar)

/-! ## Lines

A line of the file goes on as long as a quote is open or a backslash ends it. -/

/-- Where a look through a line has come to. -/
inductive Scan where
  | plain
  /-- Behind a blank, where a comment may begin. -/
  | blank
  | escape
  | single
  | singleEscape
  | double
  | doubleEscape
  deriving DecidableEq, Repr

/-- The next place of a look through a line, a comment set apart. -/
def Scan.next (s : Scan) (c : Char) : Scan :=
  match s with
  | .plain | .blank =>
    if c = '\\' then .escape
    else if c = '"' then .double
    else if c = '\'' then .single
    else if s = .plain && isBlankChar c && c ≠ '\n' && c ≠ '\r' then .blank
    else .plain
  | .escape => .plain
  | .single => if c = '\\' then .singleEscape else if c = '\'' then .plain else .single
  | .singleEscape => .single
  | .double => if c = '\\' then .doubleEscape else if c = '"' then .plain else .double
  | .doubleEscape => .double

/-- The part of a line before a comment, and where the look through it ends; `none` stands for a
comment. -/
def Scan.through : Scan → List Char → List Char × Option Scan
  | s, [] => ([], some s)
  | s, c :: rest =>
    if s = .blank && c = '#' then ([], none)
    else
      let (before, ending) := (s.next c).through rest
      (c :: before, ending)

/-- Cuts a text behind each line break. -/
def cutLines : List Char → List (List Char)
  | [] => []
  | c :: rest =>
    if c = '\n' then [c] :: cutLines rest
    else
      match cutLines rest with
      | [] => [[c]]
      | line :: lines => (c :: line) :: lines

/-- A text that says nothing from its first character on. -/
def isRemark (cs : List Char) : Bool := (cs.dropWhile isBlankChar).head? = some '#'

/-- The logical lines of a text whose look has come to `scan` after `buffer`. One that never ends is
`none`, and the last. -/
def logicalLines (scan : Scan) (buffer : List Char) : List (List Char) → List (Option (List Char))
  | [] => if scan = .plain then [] else [none]
  | line :: rest =>
    if isRemark (buffer ++ line) then some [] :: logicalLines .plain [] rest
    else
      match scan.through line with
      | (before, none) => some (buffer ++ before) :: logicalLines .plain [] rest
      | (_, some .plain) => some (buffer ++ line) :: logicalLines .plain [] rest
      | (_, some scan) => logicalLines scan (buffer ++ line) rest

/-! ## Values -/

/-- The quotes that are open. -/
inductive Quote where
  | none
  | single
  | double
  deriving DecidableEq, Repr

/-- A variable whose name is being read, its last character first. -/
inductive Reference where
  | none
  | bare (name : List Char)
  | braced (name : List Char)
  deriving DecidableEq, Repr

/-- What has been read of a value. -/
structure ValueReader where
  /-- The value so far, its last character first. -/
  output : List Char
  quote : Quote
  escaped : Bool
  reference : Reference
  /-- A blank has been met: nothing but a comment may follow. -/
  ending : Bool
  /-- A comment has been met. -/
  ended : Bool

namespace ValueReader

/-- Nothing has been read. -/
def start : ValueReader := ⟨[], .none, false, .none, false, false⟩

/-- Adds a character. -/
def push (r : ValueReader) (c : Char) : ValueReader := { r with output := c :: r.output }

/-- Adds the value of the variable with a name that is given backwards. -/
def substitute (env : Environment) (r : ValueReader) (name : List Char) : ValueReader :=
  let value := env.text (String.ofList name.reverse)
  { r with output := value.toList.reverse ++ r.output, reference := .none }

/-- Reads a character behind a backslash. -/
def readEscaped (r : ValueReader) (c : Char) : Option ValueReader :=
  let r := { r with escaped := false }
  if c ∈ ['\\', '\'', '"', '$', ' '] then some (r.push c)
  else if c = 'n' then some (r.push '\n')
  else none

/-- Reads a character of a name, or the first one behind it. -/
def readReference (env : Environment) (r : ValueReader) (c : Char) : ValueReader :=
  match r.reference with
  | .none => r
  | .bare name =>
    if Text.isAlphanumeric c then { r with reference := .bare (c :: name) }
    else if c = '{' ∧ name.isEmpty then { r with reference := .braced [] }
    else if c = '$' then { r.substitute env name with reference := .bare [] }
    else (r.substitute env name).push c
  | .braced name =>
    if c = '}' then r.substitute env name else { r with reference := .braced (c :: name) }

/-- Reads a character. -/
def read (env : Environment) (r : ValueReader) (c : Char) : Option ValueReader :=
  if r.ended then some r
  else if r.ending then
    if c = ' ' ∨ c = '\t' then some r
    else if c = '#' then some { r with ended := true }
    else none
  else if r.escaped then r.readEscaped c
  else if r.quote = .single then
    some (if c = '\'' then { r with quote := .none } else r.push c)
  else if r.reference ≠ .none then some (r.readReference env c)
  else if c = '$' then some { r with reference := .bare [] }
  else if c = '\\' then some { r with escaped := true }
  else if r.quote = .double then
    some (if c = '"' then { r with quote := .none } else r.push c)
  else if c = '\'' then some { r with quote := .single }
  else if c = '"' then some { r with quote := .double }
  else if c = ' ' ∨ c = '\t' then some { r with ending := true }
  else some (r.push c)

/-- The value, if nothing is left open. -/
def finish (env : Environment) (r : ValueReader) : Option String :=
  let text (r : ValueReader) := String.ofList r.output.reverse
  if r.quote ≠ .none then none
  else
    match r.reference with
    | .braced _ => none
    | .bare name => some (text (r.substitute env name))
    | .none => some (text r)

end ValueReader

/-- The value that a text stands for. -/
def value? (env : Environment) (cs : List Char) : Option String :=
  (cs.foldlM (ValueReader.read env) ValueReader.start).bind (ValueReader.finish env)

/-! ## Assignments -/

/-- What a line says. -/
inductive Statement where
  | nothing
  | assignment (name value : String)
  /-- It breaks the rules. -/
  | broken
  deriving DecidableEq, Repr

/-- A character that a name begins with. -/
def beginsName (c : Char) : Bool := c.isAlpha || c = '_'

/-- A character inside a name. -/
def isNameChar (c : Char) : Bool := c.isAlphanum || c = '_' || c = '.'

/-- Takes a name off, and the blanks behind it. -/
def takeName? (cs : List Char) : Option (List Char × List Char) :=
  if cs.head?.any beginsName then
    some (cs.takeWhile isNameChar, (cs.dropWhile isNameChar).dropWhile isBlankChar)
  else none

/-- The statement that assigns what follows an equals sign. -/
def assign (env : Environment) (name cs : List Char) : Statement :=
  let name := String.ofList name
  match cs.dropWhile isBlankChar with
  | [] => .assignment name ""
  | '#' :: _ => .assignment name ""
  | cs =>
    match value? env cs with
    | some value => .assignment name value
    | none => .broken

/-- The word that may stand before an assignment. -/
def exportWord : List Char := "export".toList

/-- What a logical line says. The word before an assignment can itself be assigned to. -/
def statement (env : Environment) (line : List Char) : Statement :=
  let line := ((line.reverse.dropWhile isBlankChar).reverse).dropWhile isBlankChar
  match line with
  | [] => .nothing
  | '#' :: _ => .nothing
  | _ =>
    match takeName? line with
    | none => .broken
    | some (name, '=' :: rest) => assign env name rest
    | some (name, rest) =>
      if name = exportWord then
        match takeName? rest with
        | some (name, '=' :: rest) => assign env name rest
        | _ => .broken
      else .broken

/-- A text can be the value of a variable. -/
def isStorable (value : String) : Bool := value.toList.all fun c => c.toNat ≠ 0

/-- Adds a variable, unless there is one of this name; `none` when its value cannot be stored. -/
def store? (env : Environment) (name value : String) : Option Environment :=
  if (env.get? name).isSome || isStorable value then some (env.addIfAbsent name value) else none

/-- Adds the variables that lines assign, up to the first line that breaks the rules; `none` when a
value cannot be stored. -/
def loadLines? (env : Environment) : List (Option (List Char)) → Option Environment
  | [] => some env
  | none :: _ => some env
  | some line :: rest =>
    match statement env line with
    | .nothing => loadLines? env rest
    | .assignment name value => (store? env name value).bind (loadLines? · rest)
    | .broken => some env

/-- The mark that may stand before the first line. -/
def byteOrderMark : Char := '\uFEFF'

/-- Adds the variables that a file assigns; `none` when a value cannot be stored, at which a program
breaks down. -/
def load? (env : Environment) (file : String) : Option Environment :=
  let cs := file.toList
  let cs := if cs.head? = some byteOrderMark then cs.tail else cs
  loadLines? env (logicalLines .plain [] (cutLines cs))

end ProgressiveSearch.Environment.Dotenv
