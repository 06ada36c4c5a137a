import ProgressiveSearch.Log.Filter
import ProgressiveSearch.Text.Terminal

/-!
# Log lines

An entry as a line of text: its message, then its values, each behind its name and an equals sign.
Times that were measured differ from run to run, and a line has `_` in their place. A line tells
inside which span its entry was written, if the filter knows the span.
-/
namespace ProgressiveSearch.Log

/-- The text of a value. -/
def Value.shown : Value → String
  | .number n => toString n
  | .flag b => if b then "true" else "false"
  | .plain s => s
  | .text s => Text.quoted s
  | .elapsed _ | .effort => "_"

/-- The text of an entry. Its message may repeat text from outside, and has codes for the characters
with which a terminal's commands begin. -/
def Entry.text (e : Entry) : String :=
  e.fields.foldl (fun s f => s ++ " " ++ f.name ++ "=" ++ f.value.shown) (Text.withCodes e.message)

/-- A line of a log. -/
structure Line where
  /-- The level; text that answers a question has none. -/
  level : Option Level
  span : Option String
  text : String
  deriving DecidableEq, Repr

/-- The line of an entry written inside a span or outside all, if the filter lets it through. -/
def Line.ofEntry? (f : Filter) (span : Option Span) (e : Entry) : Option Line :=
  if f.lets span e then
    some
      { level := some e.level
        span := (span.filter f.knows).map Span.text
        text := e.text }
  else none

/-- A line that is no entry. -/
def Line.bare (text : String) : Line := ⟨none, none, text⟩

end ProgressiveSearch.Log
