import ProgressiveSearch.Time.Instant

/-!
# Schedules

Tasks that share a state and a clock, run one at a time. A task that can take a step is put into a
queue, in the order in which tasks become able to; of several that become able at once, the one that
has been waiting longest comes first. A task at the head of the queue runs until it has to wait, or
until its turn is over; then it goes to the end of the queue. The clock stands still while any task
can go on, and then moves to the earliest moment for which a task waits.
-/
namespace ProgressiveSearch

/-- Tasks of type `τ` that share a state of type `σ`. -/
structure Tasks (σ τ : Type) where
  /-- The tasks of a state, in the order in which they were started. -/
  all : σ → List τ
  /-- One step of a task, or `none` while it waits and when it is over. -/
  step : τ → σ → Option σ
  /-- The moment at which a waiting task goes on by itself. -/
  wakesAt : τ → σ → Option Instant
  now : σ → Instant
  setNow : Instant → σ → σ
  /-- A bound on the number of steps before all tasks wait. -/
  workLeft : σ → Nat

/-- A state and the order in which its tasks will run. -/
structure Schedule (σ τ : Type) where
  state : σ
  /-- All tasks, the one that has been waiting longest first. -/
  waiting : List τ
  /-- The tasks that can go on, in the order in which they became able to. -/
  queue : List τ

namespace Schedule

variable {σ τ : Type} [DecidableEq τ]

/-- The schedule of a state whose tasks have not run yet. -/
def ofState (tasks : Tasks σ τ) (state : σ) : Schedule σ τ where
  state
  waiting := tasks.all state
  queue := []

/-- Replaces the state. -/
def update (s : Schedule σ τ) (f : σ → σ) : Schedule σ τ :=
  { s with state := f s.state }

/-- Takes note of tasks that have been started and of tasks that can go on now. -/
def wake (tasks : Tasks σ τ) (s : Schedule σ τ) : Schedule σ τ :=
  let started := (tasks.all s.state).filter fun t => !s.waiting.contains t
  let waiting := s.waiting ++ started
  let able := waiting.filter fun t => (tasks.step t s.state).isSome && !s.queue.contains t
  { s with waiting, queue := s.queue ++ able }

/-- How many steps a task may take before it gives way to the others. -/
def turn : Nat := 128

/-- Runs one task for at most `n` steps, or until it has to wait. -/
def exhaust (tasks : Tasks σ τ) (t : τ) : Nat → σ → σ
  | 0, state => state
  | n + 1, state =>
    match tasks.step t state with
    | none => state
    | some state => exhaust tasks t n state

/-- Lets tasks have their turns, at most `n` of them, until all tasks wait. -/
def settleWithin (tasks : Tasks σ τ) : Nat → Schedule σ τ → Schedule σ τ
  | 0, s => s
  | n + 1, s =>
    let s := s.wake tasks
    match s.queue with
    | [] => s
    | t :: rest =>
      settleWithin tasks n
        { state := exhaust tasks t turn s.state
          waiting := s.waiting.erase t ++ [t]
          queue := rest }

/-- Runs tasks until all of them wait. The clock stands still. -/
def settle (tasks : Tasks σ τ) (s : Schedule σ τ) : Schedule σ τ :=
  settleWithin tasks (tasks.workLeft s.state) s

/-- The earliest later moment, in whole milliseconds, for which a task waits. -/
def nextWake? (tasks : Tasks σ τ) (s : Schedule σ τ) : Option Instant :=
  let moments := s.waiting.filterMap fun t => (tasks.wakesAt t s.state).map Instant.ceilMillis
  let later := moments.filter fun t => tasks.now s.state < t
  later.foldl (fun best t => some (match best with
    | none => t
    | some b => if t < b then t else b)) none

/-- Moves the clock to `target`, with at most `n` stops on the way at moments for which a task
waits. -/
def advanceWithin (tasks : Tasks σ τ) (target : Instant) : Nat → Schedule σ τ → Schedule σ τ
  | 0, s => s.update (tasks.setNow target)
  | n + 1, s =>
    match s.nextWake? tasks with
    | none => s.update (tasks.setNow target)
    | some t =>
      if t ≤ target then advanceWithin tasks target n ((s.update (tasks.setNow t)).settle tasks)
      else s.update (tasks.setNow target)

/-- Lets a time pass: the clock stops at every moment for which a task waits, the last one included,
and all tasks run before it goes on. Stops are at least a millisecond apart. -/
def advance (tasks : Tasks σ τ) (d : Duration) (s : Schedule σ τ) : Schedule σ τ :=
  let s := s.settle tasks
  advanceWithin tasks ((tasks.now s.state).plus d) (d.millis + 1) s

/-- Lets time pass until something holds of the state, with at most `n` stops at moments for which a
task waits. It ends as well when no task waits for anything. -/
def runUntil (tasks : Tasks σ τ) (done : σ → Bool) : Nat → Schedule σ τ → Schedule σ τ
  | 0, s => s.settle tasks
  | n + 1, s =>
    let s := s.settle tasks
    if done s.state then s
    else
      match s.nextWake? tasks with
      | none => s
      | some t => runUntil tasks done n (s.update (tasks.setNow t))

end Schedule

end ProgressiveSearch
