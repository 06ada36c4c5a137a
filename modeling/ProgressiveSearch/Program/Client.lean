import ProgressiveSearch.Client.Endpoint
import ProgressiveSearch.Program.Server

/-!
# The client program

The client reads what it is to do, connects, and makes its calls one after the other. After each
call it tells what came of it. A call that fails ends the program.
-/
namespace ProgressiveSearch.Program

/-- A client that knows what to do. -/
structure Caller where
  plan : Client.Plan
  filter : Log.Filter

namespace Caller

/-- Starts the client, or tells how it ended before it could connect. -/
def start (launch : Launch) : Except Report Caller :=
  let env := launch.environment
  match Client.Plan.read launch.arguments env.get? with
  | .error (.halt h) => .error (.ofHalt Client.about h)
  | .error (.config fault) => .error (.failure [] fault.message)
  | .ok plan =>
    match Log.Filter.ofVariable? (env.get? filterVariable) with
    | none => .error (.breakdown [])
    | some filter => .ok { plan, filter }

/-- Something that the client itself has to say. -/
def entry (level : Log.Level) (message : String) (fields : List Log.Field) : Log.Entry where
  level
  origin := .client
  message
  fields

/-- What the client says about the outcome of a call. -/
def verdict (number : Nat) (o : Exchange.Outcome) : Log.Entry :=
  let call := Log.Field.number "call" number
  match o.selected with
  | some b =>
    let top := (b.items.head?.map fun item => Log.Field.text "top_item" item.itemId).toList
    entry .info "Final result"
      ([call, .number "revision" b.revision.toNat, .number "items" b.items.length] ++ top ++
        [.elapsed "duration_ms" (Log.millisWord o.elapsed.millis)])
  | none =>
    if o.termination = .cancelled then entry .warn "Call cancelled before any result" [call]
    else entry .warn "No result available" [call, .plain "termination" o.termination.name]

/-- What the client says at the end. -/
def farewell (calls found : Nat) : Log.Entry :=
  entry .info "Done" [.number "calls" calls, .number "found" found]

/-- The span of a call. -/
def callSpan (number : Nat) : Log.Span where
  name := "call"
  numberName := "call"
  number
  origin := .client

/-- The line of an event of a call. What receives replies works outside the span of the call. -/
def line? (f : Log.Filter) (number : Nat) (e : Exchange.Event) : Option (Strand × Log.Line) :=
  if e.ofReceiver then (Log.Line.ofEntry? f none e.entry).map (.receive, ·)
  else (Log.Line.ofEntry? f (some (callSpan number)) e.entry).map (.main, ·)

/-- The line of something that the client itself has to say. -/
def ownLine? (f : Log.Filter) (e : Log.Entry) : Option (Strand × Log.Line) :=
  (Log.Line.ofEntry? f none e).map (.main, ·)

/-- The longest time, in milliseconds, that a call can take. -/
def patience (c : Client.Config) : Nat :=
  c.connectTimeout.millis + c.exchange.contextDelay.millis + c.exchange.window.max.millis

/-- Makes a call and lets time pass until it is over. -/
def make (c : Caller) (seed : UInt64) (course : Course) : Option Call × Course :=
  let place := course.state.connection.lines.length
  let config := c.plan.config
  let call := Call.prepare config.connectTimeout c.plan.request config.exchange (.ofSeed seed)
  let course := course.update fun w =>
    let w := { w with connection := w.connection.addCall call.start }
    match c.plan.cancelAfter with
    | some delay => w.setAlarm delay (.giveUp place)
    | none => w
  let isOver (w : World) := ((w.connection.call? place).bind Call.result?).isSome
  let course := Course.waitFor course isOver (patience config)
  (course.state.connection.call? place, course)

/-- Makes `n` calls more, after the one with a number and with so many results found, and tells what
comes of them. -/
def makeAll (c : Caller) (seed : UInt64) (log : List (Strand × Log.Line)) (found : Nat) :
    Nat → Nat → Course → Report × Course
  | _, 0, course =>
    (.success (log ++ (ownLine? c.filter (farewell c.plan.repetitions found)).toList), course)
  | number, n + 1, course =>
    let (call, course) := c.make (seed + UInt64.ofNat number) course
    let events := (call.map fun call => call.exchange.journal).getD []
    let log := log ++ events.filterMap (line? c.filter (number + 1))
    match call.bind Call.result? with
    | some (.outcome o) =>
      let log := log ++ (ownLine? c.filter (verdict (number + 1) o)).toList
      c.makeAll seed log (if o.found then found + 1 else found) (number + 1) n course
    | some (.failed failure) => (.failure log failure.message, course)
    | some .brokenDown | none => (.breakdown log, course)

/-- Runs a client that knows what to do, given where somebody listens. -/
def run (c : Caller) (seed : UInt64) (listens : Client.Endpoint → Bool) (course : Course) :
    Report × Course :=
  let url := c.plan.config.url
  match Client.connect url listens with
  | .error u => (.failure [] (u.failure url).message, course)
  | .ok _ =>
    let log := (ownLine? c.filter (Client.connected url)).toList
    let course := course.update fun w => { w with connection := w.connection.renew }
    c.makeAll seed log 0 0 c.plan.repetitions course

end Caller

end ProgressiveSearch.Program
