import Rendezvous.Json.Writer
import Rendezvous.Worker

/-!
# Command line

Runs the worker with the settings of the process environment. The end of standard input is the
request to stop.
-/

namespace Rendezvous.Worker

/-- The variables that settings are read from. No other variable of the process makes a
difference. -/
def variableNames : List String :=
  ["RESUME_POLL_INTERVAL_MS", "RESUME_STORE_BACKEND", "RESUME_EVENT_TRANSPORT", "DATABASE_URL",
    "RESUME_AWAIT_TTL_SECS", "RESUME_AWAIT_CAPACITY", "RESUME_LOG_JSON"]

def printEntries (asJson : Bool) (entries : List LogEntry) : IO Unit := do
  for e in entries do
    IO.println (if asJson then e.json.render else e.line)
  (← IO.getStdout).flush

partial def waitForEnd (input : IO.FS.Stream) : IO Unit := do
  if !(← input.getLine).isEmpty then waitForEnd input

end Rendezvous.Worker

open Rendezvous.Worker in
/-- Runs a worker with the settings of the process environment, until the end of its input asks it
to stop. -/
def main : IO UInt32 := do
  let values ← variableNames.mapM fun name => return (name, ← IO.getEnv name)
  let r := run fun name => (values.lookup name).join
  printEntries r.asJson (r.before ++ r.pollersBefore)
  match r.ending with
  | .stopped =>
    waitForEnd (← IO.getStdin)
    printEntries r.asJson (r.after.take 1 ++ r.pollersAfter ++ r.after.drop 1)
  | .badSettings e => IO.eprintln s!"Error: {e.message}"
  | .noDatabase => IO.eprintln "Error: no database"
  return r.ending.exitCode.toUInt32
