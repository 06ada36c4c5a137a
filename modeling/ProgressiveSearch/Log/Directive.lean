import ProgressiveSearch.Log.Span
import ProgressiveSearch.Text.Alphanumeric
import ProgressiveSearch.Text.Digits
import ProgressiveSearch.Text.Headline
import ProgressiveSearch.Text.Utf8
import ProgressiveSearch.Word

/-!
# Directives

A directive of a filter sets a level for what is written in certain places. It may name a target,
with which the path of the part that writes has to begin; a span, inside which the part has to work;
and fields, which the span must have, each with a value or with any. It is written as a target, the
rest between brackets and the fields between braces, an equals sign and a level. All of it may be
left out but not all at once, and without a level everything is let through.

Blanks before a directive do not count when the places of its signs are found, but they do when its
parts are cut out. So a directive behind a blank says something else than what it shows, and a cut
that falls inside a character breaks the reading down.
-/
namespace ProgressiveSearch.Log

/-- The least severe level that is let through; `none` lets nothing through. -/
abbrev Threshold := Option Level

namespace Threshold

/-- Entries of a level are let through. -/
def admits (t : Threshold) (level : Level) : Bool :=
  match t with
  | some threshold => level.reaches threshold
  | none => false

/-- The words that stand for thresholds. -/
def words : List (String × Threshold) :=
  [("off", none), ("error", some .error), ("warn", some .warn), ("info", some .info),
   ("debug", some .debug), ("trace", some .trace)]

/-- The threshold with a number: none for zero, then from the most severe down. -/
def ofNumber? (n : Nat) : Option Threshold := (words.map Prod.snd)[n]?

/-- The threshold that a word stands for, in capitals or not. -/
def ofWord? (word : String) : Option Threshold :=
  let lower := String.ofList (word.toList.map Char.toLower)
  match words.lookup lower with
  | some threshold => some threshold
  | none =>
    match Text.readUnsigned Word.max64 word with
    | .ok n => ofNumber? n
    | .error _ => none

end Threshold

/-- What a field of a span has to be. -/
inductive Wanted where
  | number (n : Nat)
  /-- Anything that is not a whole number. -/
  | other (s : String)
  deriving DecidableEq, Repr

/-- A field that a span must have, and its value if that matters. -/
structure FieldTest where
  name : String
  value : Option Wanted
  deriving DecidableEq, Repr

/-- A level for what is written in certain places. -/
structure Directive where
  target : Option String
  span : Option String
  fields : List FieldTest
  threshold : Threshold
  deriving DecidableEq, Repr

/-- Why a directive cannot be read. -/
inductive DirectiveFault where
  /-- It breaks the rules. -/
  | unreadable
  /-- A cut falls inside a character. -/
  | torn
  deriving DecidableEq, Repr

namespace Directive

/-- The directive without any condition, for a threshold. -/
def general (threshold : Threshold) : Directive := ⟨none, none, [], threshold⟩

/-! ## Reading -/

/-- A character that a directive can begin with, other than a bracket. -/
def begins (c : Char) : Bool :=
  Text.isAlphanumeric c || c = '-' || c = ':' || c = '_'

/-- A field test, read from its text: a name, and what stands between the first two equals signs. -/
def fieldTest (cs : List Char) : FieldTest where
  name := String.ofList (cs.takeWhile (· ≠ '='))
  value :=
    match cs.dropWhile (· ≠ '=') with
    | [] => none
    | _ :: rest =>
      let value := String.ofList (rest.takeWhile (· ≠ '='))
      match Text.readUnsigned Word.max64 value with
      | .ok n => some (.number n)
      | .error _ => some (.other value)

/-- Where a look through a directive has come to. Parts that are open know at which byte they
began. -/
inductive Stage where
  | start
  /-- In a target, or in a level without one. -/
  | opening
  | span (first : Nat)
  | field (first : Nat)
  | fieldsOver
  | spanOver
  | level (first : Nat)
  deriving DecidableEq, Repr

/-- What has been read of a directive. -/
structure Reader where
  stage : Stage
  /-- The number of bytes that have been looked at. -/
  place : Nat
  directive : Directive

/-- The part of a text between two places, counted in bytes. -/
def cut (text : List Char) (first last : Nat) : Except DirectiveFault (List Char) :=
  match (Text.dropBytes? first text).bind (Text.takeBytes? (last - first)) with
  | some part => .ok part
  | none => .error .torn

/-- The part of a text from a place on. -/
def cutFrom (text : List Char) (first : Nat) : Except DirectiveFault (List Char) :=
  match Text.dropBytes? first text with
  | some part => .ok part
  | none => .error .torn

namespace Reader

/-- Nothing has been read. -/
def first : Reader := ⟨.start, 0, general (some .trace)⟩

/-- The place behind the character that is read now, when it has a single byte. -/
def behind (r : Reader) : Nat := r.place + 1

/-- The stage behind a character, and what is known of the directive then. -/
def advance (text : List Char) (r : Reader) (c : Char) :
    Except DirectiveFault (Stage × Directive) := do
  let d := r.directive
  match r.stage with
  | .start =>
    if c = '[' then return (.span r.behind, d)
    else if begins c then return (.opening, d)
    else throw .unreadable
  | .opening =>
    if c = '=' then
      let part ← cut text 0 r.place
      return (.level r.behind, { d with target := some (String.ofList part) })
    else if c = '[' then
      let part ← cut text 0 r.place
      return (.span r.behind, { d with target := some (String.ofList part) })
    else return (.opening, d)
  | .span first =>
    if c = ']' then
      let part ← cut text first r.place
      return (.spanOver, { d with span := some (String.ofList part) })
    else if c = '\x7b' then
      let part ← cut text first r.place
      return (.field r.behind,
        { d with span := if part.isEmpty then none else some (String.ofList part) })
    else return (.span first, d)
  | .field first =>
    if c = '\x7d' then
      let part ← cut text first r.place
      if part.isEmpty then throw .unreadable
      else return (.fieldsOver, { d with fields := d.fields ++ [fieldTest part] })
    else return (.field first, d)
  | .fieldsOver => if c = ']' then return (.spanOver, d) else throw .unreadable
  | .spanOver => if c = '=' then return (.level r.behind, d) else throw .unreadable
  | .level first => return (.level first, d)

/-- Reads a character. -/
def read (text : List Char) (r : Reader) (c : Char) : Except DirectiveFault Reader := do
  let (stage, directive) ← r.advance text c
  return { stage, place := r.place + c.utf8Size, directive }

/-- The directive, if it may end here. -/
def finish (text : List Char) (r : Reader) : Except DirectiveFault Directive := do
  let d := r.directive
  match r.stage with
  | .opening =>
    let word := String.ofList (← cutFrom text 0)
    match Threshold.ofWord? word with
    | some threshold => return { d with threshold }
    | none => return { d with target := some word }
  | .level first =>
    let word := String.ofList (← cutFrom text first)
    if word.isEmpty then return d
    else
      match Threshold.ofWord? word with
      | some threshold => return { d with threshold }
      | none => throw .unreadable
  | .spanOver => return d
  | .start | .span _ | .field _ | .fieldsOver => throw .unreadable

end Reader

/-- Reads a directive. -/
def ofText (text : List Char) : Except DirectiveFault Directive := do
  let trimmed := Text.trimEnd (text.dropWhile Text.isBlankChar)
  let r ← trimmed.foldlM (Reader.read text) Reader.first
  r.finish text

/-! ## What a directive speaks about -/

/-- The path of a part begins with the target. -/
def reaches (d : Directive) (path : String) : Bool :=
  match d.target with
  | none => true
  | some target => target.toList.isPrefixOf path.toList

/-- How much of a path the target takes: more than nothing even if it is empty. -/
def reach (d : Directive) : Nat :=
  match d.target with
  | none => 0
  | some target => Text.byteCount target + 1

/-- It depends on the span. -/
def needsSpan (d : Directive) : Bool := d.span.isSome || !d.fields.isEmpty

/-- It can speak about entries outside all spans: those that have the fields, whatever they are. -/
def speaksOutside (d : Directive) : Bool := d.span.isNone && d.fields.all fun f => f.value.isNone

/-- It looks at the value of a field. -/
def looksAtValues (d : Directive) : Bool := d.fields.any fun f => f.value.isSome

/-- It speaks about spans like this one, whatever their numbers. -/
def speaksAboutLike (d : Directive) (s : Span) : Bool :=
  d.reaches s.origin.target && d.span.all (· = s.name) &&
    d.fields.all fun f => f.name = s.numberName

/-- It speaks about a span. -/
def speaksAbout (d : Directive) (s : Span) : Bool :=
  d.speaksAboutLike s && d.fields.all fun f => f.value.all (· = .number s.number)

/-- It says something of the same places as another. -/
def rivals (d other : Directive) : Bool :=
  d.target = other.target && d.span = other.span && d.fields = other.fields

end Directive

end ProgressiveSearch.Log
