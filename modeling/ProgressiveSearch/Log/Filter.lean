import ProgressiveSearch.Log.Directive

/-!
# Filters

A filter is a list of directives. It lets an entry through in one of two cases.

* A directive that can speak outside all spans decides about it, and lets its level through. The
  longest target decides, then the greatest number of fields, then the names of the fields, the last
  in the order of dictionaries first; of two for the same places, the later one.
* It is written inside a span about which some directive speaks that lets its level through.

A span is shown, and counts, only when the filter knows it: some directive must speak about spans
like it, or decide about its part and let its level through; and spans are passed over altogether
when no directive lets their level through, unless the value of a field has to be looked at.

A filter that cannot be read counts as the standard one, and one without directives lets errors
through.
-/
namespace ProgressiveSearch.Log

/-- The directives of a filter, in the order in which they were written. -/
structure Filter where
  directives : List Directive
  deriving Repr

namespace Filter

/-- The filter that lets everything through that is at least as severe as a level. -/
def ofLevel (level : Level) : Filter := ⟨[.general (some level)]⟩

/-- The filter that is used when no other is given. -/
def standard : Filter := ofLevel .info

/-! ## Reading -/

/-- The texts between commas, empty ones left out. -/
def parts (cs : List Char) : List (List Char) :=
  (cs.splitBy fun a b => a ≠ ',' && b ≠ ',').filter (· ≠ [','])

/-- Reads a filter. -/
def ofText (s : String) : Except DirectiveFault Filter := do
  match ← (parts s.toList).mapM Directive.ofText with
  | [] => return ofLevel .error
  | directives => return ⟨directives⟩

/-- The filter of a program that finds a text, or none, under the name of its filter; `none` when
the reading breaks down. -/
def ofVariable? : Option String → Option Filter
  | none => some standard
  | some s =>
    match ofText s with
    | .ok f => some f
    | .error .unreadable => some standard
    | .error .torn => none

/-! ## Outside spans -/

/-- The directives that can speak about an entry outside all spans. The fields are those of the
entry; `none` stands for a span, of which no fields are asked. -/
def candidates (f : Filter) (path : String) (fields : Option (List String)) : List Directive :=
  f.directives.filter fun d =>
    d.speaksOutside && d.reaches path &&
      fields.all fun names => d.fields.all fun test => names.contains test.name

/-- One list of names comes after another in the order of dictionaries. -/
def comesAfter : List String → List String → Bool
  | [], _ => false
  | _ :: _, [] => true
  | a :: as, b :: bs => if a = b then comesAfter as bs else b < a

/-- One directive decides before another. -/
def precedes (d other : Directive) : Bool :=
  if d.reach ≠ other.reach then other.reach < d.reach
  else if d.fields.length ≠ other.fields.length then other.fields.length < d.fields.length
  else comesAfter (d.fields.map FieldTest.name) (other.fields.map FieldTest.name)

/-- The directive that decides among several: the last of those before which none decides. -/
def decider? (ds : List Directive) : Option Directive :=
  ds.foldl (fun best d =>
    match best with
    | some b => if precedes b d then some b else some d
    | none => some d) none

/-- What decides outside spans admits a level. -/
def admitsOutside (f : Filter) (path : String) (fields : Option (List String)) (level : Level) :
    Bool :=
  (decider? (f.candidates path fields)).any fun d => d.threshold.admits level

/-! ## Spans -/

/-- The level of spans. -/
def spanLevel : Level := .info

/-- Directives without those that a later one for the same places replaces. -/
def latest : List Directive → List Directive
  | [] => []
  | d :: rest => if rest.any d.rivals then latest rest else d :: latest rest

/-- The directives that depend on the span. -/
def spanDirectives (f : Filter) : List Directive := latest (f.directives.filter (·.needsSpan))

/-- Spans are looked at. -/
def looksAtSpans (f : Filter) : Bool :=
  f.directives.any fun d => d.looksAtValues || d.threshold.admits spanLevel

/-- A span is known to the filter. -/
def knows (f : Filter) (s : Span) : Bool :=
  f.looksAtSpans &&
    (f.spanDirectives.any (·.speaksAboutLike s) ||
      f.admitsOutside s.origin.target none spanLevel)

/-- What is written inside a span is let through at a level. -/
def admitsInside (f : Filter) (s : Span) (level : Level) : Bool :=
  f.knows s && f.spanDirectives.any fun d => d.speaksAbout s && d.threshold.admits level

/-! ## Entries -/

/-- The names of the fields of an entry, its message included. -/
def fieldNames (e : Entry) : List String := "message" :: e.fields.map Field.name

/-- An entry, written inside a span or outside all, is let through. -/
def lets (f : Filter) (span : Option Span) (e : Entry) : Bool :=
  span.any (f.admitsInside · e.level) ||
    f.admitsOutside e.origin.target (some (fieldNames e)) e.level

end Filter

end ProgressiveSearch.Log
