import PaperTrading.CommandLine.Program
import PaperTrading.Http.Document
import PaperTrading.Number.Double
import Std.Time.DateTime.Timestamp

/-!
# The program on a machine

The outer layer reads the clock, the environment and the files that the program may ask for, lets
`CommandLine.run` decide, and writes what comes of it.  A program that serves takes requests line by
line, each an object in JSON, and answers each with a line.
-/

namespace PaperTrading.CommandLine

/-- The current moment. -/
def currentInstant : IO Instant := do
  let t ← Std.Time.Timestamp.now
  return ⟨t.toMillisecondsSinceUnixEpoch.val⟩

/-- The variables of the given names that are set. -/
def readEnvironment (names : List String) : IO (Table String) :=
  names.foldlM (fun t name => do
    return match ← IO.getEnv name with
      | some v => t.insert name v
      | none => t) .empty

/-- The text of a file, if it can be read. -/
def readText? (path : String) : IO (Option String) := do
  try
    return some (← IO.FS.readFile path)
  catch _ =>
    return none

/-- The files at the given paths, as far as they can be read. -/
def readFiles (paths : List String) : IO Files :=
  paths.foldlM (fun files path => do
    return match ← readText? path with
      | some text => files.insert path text
      | none => files) .empty

/-- The environment and the files that the arguments lead to.  The file of variables is read first,
because it may mention further variables and name further files. -/
def surroundings (args : List String) : IO (Table String × Files) := do
  let environment ← readEnvironment Config.names
  let files ← readFiles (wantedFiles Float environment .empty args)
  let environment ← readEnvironment (Config.names ++ wantedVariables Float files args)
  return (environment, ← readFiles (wantedFiles Float environment files args))

/-- How deep lists and objects may lie inside each other in a request. -/
def lineDepth : Nat := 1000

/-- Answers requests until the input ends. -/
partial def serveLines (input output : IO.FS.Stream) (service : Http.Service Float) : IO Unit := do
  let line ← input.getLine
  if line.isEmpty then return
  match (Json.read lineDepth line : Except Failure (Value Float)) with
  | .error _ =>
    output.putStrLn (Json.write (Http.Response.unprocessable : Http.Response Float).toValue)
    output.flush
    serveLines input output service
  | .ok v =>
    let (service, response) := service.handle (← currentInstant) (.ofValue v)
    output.putStrLn (Json.write response.toValue)
    output.flush
    serveLines input output service

/-- Writes how the program ended, or serves; the result is the exit code. -/
def conclude : Outcome Float → IO UInt32
  | .helped => do
    IO.println usage
    return 0
  | .misused e => do
    IO.eprintln usage
    IO.eprintln ("error: " ++ e.message)
    return 2
  | .unknownStrategy id => do
    IO.eprintln (Failure.strategyNotFound id).message
    return 1
  | .failed f => do
    IO.eprintln (f.kind ++ ": " ++ f.message)
    return 1
  | .replayed _ => return 0
  | .serving _ service => do
    serveLines (← IO.getStdin) (← IO.getStdout) service
    return 0

end PaperTrading.CommandLine

open PaperTrading CommandLine in
/-- **The command line:** serves sessions, or replays candles through a stored strategy. -/
def main (args : List String) : IO UInt32 := do
  let (environment, files) ← surroundings args
  let report : Report Float := run (← currentInstant) environment files args
  for line in report.log do IO.eprintln line
  conclude report.outcome
