import ProgressiveSearch.Channel
import ProgressiveSearch.Schedule

/-!
# Scripts

A rehearsal plays a script on tasks that share a state: a list of operations, each of which acts on
the state from outside or lets time pass. After each operation all tasks run until they wait. A
group is one operation made of several, with no task running in between.
-/
namespace ProgressiveSearch.Rehearsal

/-- Answers that are the same for all kinds of operation. -/
inductive Word where
  | ok
  | full
  | closed
  | dropped
  | empty
  | already
  | unknown
  | noCall
  deriving DecidableEq, Repr

def Word.text : Word → String
  | .ok => "ok"
  | .full => "full"
  | .closed => "closed"
  | .dropped => "dropped"
  | .empty => "empty"
  | .already => "already"
  | .unknown => "unknown"
  | .noCall => "no_call"

/-- The answer to an operation. -/
inductive Answer (β : Type) where
  | word (w : Word)
  | value (b : β)
  | list (answers : List (Answer β))

/-- The answer to an attempt to send. -/
def Word.ofSent : Channel.Sent → Word
  | .ok => .ok
  | .full => .full
  | .closed => .closed

/-- The answer to an attempt to receive. -/
def Answer.ofReceived {β : Type} : Channel.Received β → Answer β
  | .value b => .value b
  | .empty => .word .empty
  | .closed => .word .closed

/-- An operation of a script. -/
inductive Op (α : Type) where
  | act (a : α)
  | advance (millis : Nat)
  | group (ops : List (Op α))
  deriving Inhabited

/-- What a script is played on. -/
structure Stand (σ τ α β : Type) where
  tasks : Tasks σ τ
  act : α → σ → Answer β × σ

namespace Stand

variable {σ τ α β : Type} [DecidableEq τ]

mutual

/-- Applies an operation. The tasks that it lets go on are queued, but do not run yet. -/
def apply (stand : Stand σ τ α β) (s : Schedule σ τ) : Op α → Answer β × Schedule σ τ
  | .act a =>
    let (answer, state) := stand.act a s.state
    (answer, { s with state }.wake stand.tasks)
  | .advance millis => (.word .ok, s.advance stand.tasks (.ofMillis millis))
  | .group ops =>
    let (answers, s) := stand.applyAll s ops
    (.list answers, s)

/-- Applies operations one after the other. -/
def applyAll (stand : Stand σ τ α β) (s : Schedule σ τ) :
    List (Op α) → List (Answer β) × Schedule σ τ
  | [] => ([], s)
  | op :: ops =>
    let (answer, s) := stand.apply s op
    let (answers, s) := stand.applyAll s ops
    (answer :: answers, s)

end

/-- Performs an operation: applies it, and lets all tasks run until they wait. -/
def perform (stand : Stand σ τ α β) (s : Schedule σ τ) (op : Op α) : Answer β × Schedule σ τ :=
  let (answer, s) := stand.apply s op
  (answer, s.settle stand.tasks)

/-- Plays a script: for each operation its answer and the states before and after it. -/
def play (stand : Stand σ τ α β) : Schedule σ τ → List (Op α) → List (Answer β × σ × σ)
  | _, [] => []
  | s, op :: ops =>
    let (answer, after) := stand.perform s op
    (answer, s.state, after.state) :: stand.play after ops

end Stand

end ProgressiveSearch.Rehearsal
