import Rendezvous.Assembly

/-!
# The worker

A worker process reads its settings, announces them, assembles the components around stores in
memory and lets the pollers run until it is told to stop. There is no client for a database here,
so with that backend the worker ends after announcing its settings. Entries below the level of an
info are not written.
-/

namespace Rendezvous.Worker

def entry (message : String) (fields : List (String × LogValue)) : LogEntry :=
  ⟨.info, "resume_worker", message, fields⟩

/-- How a run of the worker ends. Only the first is a success; the others end it before anything was
assembled. -/
inductive Ending
  | stopped
  | badSettings (e : SettingsError)
  | noDatabase
deriving DecidableEq

def Ending.exitCode : Ending → Nat
  | .stopped => 0
  | _ => 1

/-- The entries of a run before it waits for the request to stop, and after. The pollers write
theirs on their own. -/
structure Run where
  before : List LogEntry
  after : List LogEntry
  pollersBefore : List LogEntry
  pollersAfter : List LogEntry
  ending : Ending
  asJson : Bool

/-- The entries that are written: those of the level of an info and above, in their order. -/
def written (entries : List LogEntry) : List LogEntry := entries.filter (·.level ≠ .debug)

/-- What a worker writes when it has read its settings: that it starts, and the lines that show
them. -/
def announcement (s : Settings) : List LogEntry :=
  entry "Resume worker starting..." [] ::
    s.summary.map fun line => ⟨.info, "resume_common::config", line, []⟩

/-- A run on stores in memory, which are empty at the start and lost at the end. Its pollers run
until it is told to stop. -/
def runMemory (s : Settings) : Run :=
  let a := Assembly.ofSettings s 0
  { before := written <| announcement s ++
      [entry "Using in-memory stores (state is lost on exit)" []] ++ Assembly.entries s a ++
      [entry "Resume worker running, Ctrl-C to stop" [("pollers", .count a.pollers.length)]]
    after := [entry "Shutdown requested" [], entry "Resume worker stopped" []]
    pollersBefore := a.pollers.map (·.started)
    pollersAfter := a.pollers.map (·.stopped)
    ending := .stopped
    asJson := s.logJson }

/-- A run of the worker with the variables of `env`. Settings that cannot be read end it before it
has written anything. -/
def run (env : Environment) : Run :=
  match Settings.ofEnvironment env with
  | .error e => ⟨[], [], [], [], .badSettings e, false⟩
  | .ok s => match s.backend with
    | .memory => runMemory s
    | .postgres => ⟨written (announcement s), [], [], [], .noDatabase, s.logJson⟩

end Rendezvous.Worker
