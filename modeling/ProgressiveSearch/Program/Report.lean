import ProgressiveSearch.Log.Line
import ProgressiveSearch.Options.Basic

/-!
# Reports

What a program leaves behind when it has run: how it ended, the lines of its log, and the first line
of its complaint. A program ends with 0 when all went well, with 1 when it failed, with 2 when its
command line is faulty, and with 101 when it broke down.
-/
namespace ProgressiveSearch.Program

/-- The strand of a program's work to which a line belongs. -/
inductive Strand where
  | main
  /-- The session with a number. -/
  | session (id : Nat)
  /-- What receives replies. -/
  | receive
  deriving DecidableEq, Repr

def Strand.name : Strand → String
  | .main => "main"
  | .session id => "session " ++ toString id
  | .receive => "receive"

/-- What a program leaves behind. -/
structure Report where
  exit : Nat
  log : List (Strand × Log.Line)
  complaint : String
  deriving DecidableEq, Repr

namespace Report

/-- The report of a program that does what it is asked for. -/
def success (log : List (Strand × Log.Line)) : Report := ⟨0, log, ""⟩

/-- The report of a program that fails. -/
def failure (log : List (Strand × Log.Line)) (message : String) : Report :=
  ⟨1, log, Text.headline ("Error: " ++ message)⟩

/-- The report of a program that breaks down. -/
def breakdown (log : List (Strand × Log.Line)) : Report := ⟨101, log, ""⟩

/-- The report of a program that does not follow its command line. -/
def ofHalt (about : Options.About) (h : Options.Halt) : Report :=
  if h.isQuestion then success [(.main, .bare (h.message about))]
  else ⟨2, [], h.message about⟩

/-- The strands of a log, in the order in which they first appear. -/
def strands (r : Report) : List Strand := (r.log.map Prod.fst).eraseDups

/-- The lines of a strand, in order. -/
def linesOf (r : Report) (s : Strand) : List Log.Line :=
  (r.log.filter fun line => line.1 = s).map Prod.snd

end Report

/-- The variable that holds a program's filter. -/
def filterVariable : String := "RUST_LOG"

end ProgressiveSearch.Program
