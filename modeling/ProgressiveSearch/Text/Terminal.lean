import ProgressiveSearch.Text.Quoted

/-!
# Text for a terminal

A terminal takes some characters as commands instead of showing them. Text from outside is made safe
in one of two ways before it is written: what a terminal would take as a command is left out, or the
characters with which commands begin are written as their codes.

A command begins with the escape character. What follows decides how far it goes: a letter or a sign
ends it at once, a bracket opens a list of numbers that a letter ends, and some letters open a
string that goes on up to the next escape character.
-/
namespace ProgressiveSearch.Text

/-! ## Commands left out -/

/-- Where a look through a text has come to. -/
inductive CommandScan where
  /-- Outside all commands. -/
  | outside
  /-- Behind the escape character. -/
  | escape
  /-- Behind the escape character and a sign that does not end the command. -/
  | escapeSign
  /-- In a list of numbers. -/
  | numbers
  /-- In a string that the bell ends as well. -/
  | title
  /-- In a string. -/
  | string
  deriving DecidableEq, Repr

/-- The character with which commands begin. -/
def escapeChar : Char := '\x1B'

/-- The two characters that end any command. -/
def isCancel (c : Char) : Bool := c.toNat = 0x18 || c.toNat = 0x1A

/-- The four controls that move to another place of the text. -/
def isSpacing (c : Char) : Bool := c = '\t' || c = '\n' || c = '\x0C' || c = '\r'

/-- A control that does nothing. -/
def isIdle (c : Char) : Bool := c.toNat < 0x20 || c.toNat = 0x7F

/-- A character that is shown outside commands. -/
def isShown (c : Char) : Bool := isSpacing c || !isIdle c

/-- The marks that stand for a character behind whose first byte a command has ended. -/
def torn (c : Char) : List Char := List.replicate (c.utf8Size - 1) '\uFFFD'

namespace CommandScan

/-- Where a command that an escape character has begun goes on. -/
def afterEscape (c : Char) : CommandScan :=
  if c.toNat < 0x30 then .escapeSign
  else if c = '[' then .numbers
  else if c = ']' then .title
  else if c = 'P' || c = 'X' || c = '^' || c = '_' then .string
  else .outside

/-- Where the look goes on behind a character inside a command. -/
def inside (s : CommandScan) (c : Char) : CommandScan :=
  match s with
  | .outside => .outside
  | .escape => if isIdle c then .escape else afterEscape c
  | .escapeSign => if isIdle c || c.toNat < 0x30 then .escapeSign else .outside
  | .numbers => if isIdle c || c.toNat < 0x40 then .numbers else .outside
  | .title => if c.toNat = 0x07 then .outside else .title
  | .string => .string

/-- Controls that move to another place work inside a command, and end it. -/
def letsSpacing : CommandScan → Bool
  | .outside | .escape | .escapeSign | .numbers => true
  | .title | .string => false

/-- Where the look goes on behind a character, and what is shown of it. -/
def next (s : CommandScan) (c : Char) : CommandScan × List Char :=
  if c = escapeChar then (.escape, [])
  else if isCancel c then (.outside, [])
  else if s = .outside then (.outside, if isShown c then [c] else [])
  else if 0x80 ≤ c.toNat then (.outside, torn c)
  else if s.letsSpacing && isSpacing c then (.outside, [c])
  else (s.inside c, [])

/-- What is shown of a text. -/
def shown : CommandScan → List Char → List Char
  | _, [] => []
  | s, c :: rest => (s.next c).2 ++ (s.next c).1.shown rest

end CommandScan

/-- A text without what a terminal takes as commands, and without controls. -/
def withoutCommands (s : String) : String :=
  String.ofList (CommandScan.outside.shown s.toList)

/-! ## Commands as codes -/

/-- The controls that are written as codes of two digits. -/
def codedControls : List Char := ['\x1B', '\x07', '\x08', '\x0C', '\x7F']

/-- A character, or its code when a command can begin with it. -/
def coded (c : Char) : List Char :=
  if c ∈ codedControls then
    ['\\', 'x', Nat.digitChar (c.toNat / 16), Nat.digitChar (c.toNat % 16)]
  else if 0x80 ≤ c.toNat && c.toNat ≤ 0x9F then
    ['\\', 'u', '\x7b'] ++ hexDigits c.toNat ++ ['\x7d']
  else [c]

/-- A text in which no terminal finds a command. -/
def withCodes (s : String) : String := String.ofList (s.toList.flatMap coded)

end ProgressiveSearch.Text
