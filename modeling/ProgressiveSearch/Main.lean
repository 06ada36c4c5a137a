import ProgressiveSearch.Program.Scenario

/-!
# The command line

`server …` and `client …` run one of the two programs with the arguments that follow, the variables
of the environment and the file of variables in the working directory. The program runs on a clock
of its own: a server is stopped as soon as it listens, and a client finds nobody to talk to.
-/
namespace ProgressiveSearch.Program.CommandLine

/-- The variables that the programs look at. -/
def variableNames : List String :=
  filterVariable ::
    (Server.Setting.table.options.filterMap fun o => (Server.Setting.spec o).variableName) ++
    (Client.Setting.table.options.filterMap fun o => (Client.Setting.spec o).variableName)

/-- The program that a command line names, and its own arguments. -/
inductive Command where
  | server (arguments : List String)
  | client (arguments : List String)
  | unknown
  deriving DecidableEq, Repr

/-- Reads the name of the program. -/
def Command.ofArguments : List String → Command
  | "server" :: rest => .server rest
  | "client" :: rest => .client rest
  | _ => .unknown

/-- The scenario of one program that runs alone. -/
def alone (dotenv : Option String) (environment : Environment) (seed : UInt64)
    (command : Command) : Scenario where
  dotenv
  files := []
  server :=
    match command with
    | .server arguments => some { arguments, environment }
    | .client _ | .unknown => none
  peer := none
  clients :=
    match command with
    | .client arguments => [{ launch := { arguments, environment }, signalAfter := none }]
    | .server _ | .unknown => []
  signal := .terminate
  seed

/-- The report of the only program of a scenario. -/
def onlyReport (after : Aftermath) : Option Report := after.server.or after.clients.head?

/-- A line as it is printed. -/
def lineText (l : Log.Line) : String :=
  let level := (l.level.map fun level => level.name ++ " ").getD ""
  let span := (l.span.map fun span => span ++ ": ").getD ""
  level ++ span ++ l.text

/-- The environment, as far as the programs look at it. -/
def readEnvironment : IO Environment := do
  let found ← variableNames.filterMapM fun name => do
    return (← IO.getEnv name).map (name, ·)
  return ⟨found⟩

/-- The file of variables in the working directory, if it can be read. -/
def readDotenv : IO (Option String) := do
  try
    return some (← IO.FS.readFile Scenario.dotenvFile)
  catch _ =>
    return none

/-- Prints what a program leaves behind, and returns its exit code. -/
def print (report : Report) : IO UInt32 := do
  for (_, line) in report.log do
    IO.println (lineText line)
  unless report.complaint.isEmpty do
    IO.eprintln report.complaint
  return UInt32.ofNat report.exit

end ProgressiveSearch.Program.CommandLine

open ProgressiveSearch ProgressiveSearch.Program in
/-- Runs one of the two programs. -/
def main (arguments : List String) : IO UInt32 := do
  match CommandLine.Command.ofArguments arguments with
  | .unknown =>
    IO.eprintln "usage: (server | client) [OPTIONS]"
    return 2
  | command =>
    let environment ← CommandLine.readEnvironment
    let dotenv ← CommandLine.readDotenv
    let seed ← IO.rand 0 Word.max64
    let after := (CommandLine.alone dotenv environment (UInt64.ofNat seed) command).run
    match CommandLine.onlyReport after with
    | some report => CommandLine.print report
    | none => return 0
