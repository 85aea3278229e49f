import Rendezvous.Text.Count

/-!
# Settings

The settings of a process, read from named variables. An unset variable takes its default; a set
one is checked, in a fixed order, and the first fault found is the one reported.
-/

namespace Rendezvous

/-! ## Choices -/

/-- Where records are kept. Only stores in memory are among the components here. -/
inductive Backend
  | memory
  | postgres
deriving DecidableEq

/-- How adapters hand events over: through a bus that an engine subscribes to, or by calling the
engine. -/
inductive Transport
  | bus
  | direct
deriving DecidableEq

/-- What is wrong with the variables. Only the first fault is reported, in the order in which they
are read. -/
inductive SettingsError
  | notCount (name : String) (cause : Text.CountError)
  | zeroInterval
  | unknownBackend (text : String)
  | unknownTransport (text : String)
  | missingUrl
deriving DecidableEq

def SettingsError.message (e : SettingsError) : String :=
  "Configuration error: " ++ match e with
    | .notCount name cause => s!"{name} is invalid: {cause.message}"
    | .zeroInterval => "RESUME_POLL_INTERVAL_MS must be greater than zero"
    | .unknownBackend text =>
        s!"RESUME_STORE_BACKEND must be 'memory' or 'postgres', got '{text}'"
    | .unknownTransport text =>
        s!"RESUME_EVENT_TRANSPORT must be 'in_memory' or 'direct', got '{text}'"
    | .missingUrl => "DATABASE_URL is required when RESUME_STORE_BACKEND=postgres"

namespace Backend

def name : Backend → String
  | .memory => "memory"
  | .postgres => "postgres"

def ofName? : String → Option Backend
  | "memory" | "in_memory" => some .memory
  | "postgres" | "pg" => some .postgres
  | _ => none

def parse (text : String) : Except SettingsError Backend :=
  match ofName? (Text.fold text) with
  | some b => .ok b
  | none => .error (.unknownBackend (Text.fold text))

end Backend

namespace Transport

def name : Transport → String
  | .bus => "in_memory"
  | .direct => "direct"

def ofName? : String → Option Transport
  | "in_memory" | "memory" | "bus" => some .bus
  | "direct" => some .direct
  | _ => none

def parse (text : String) : Except SettingsError Transport :=
  match ofName? (Text.fold text) with
  | some k => .ok k
  | none => .error (.unknownTransport (Text.fold text))

end Transport

/-! ## Reading the variables -/

/-- The settings of a process, called `Config` in the system. Those that come out of
`Settings.ofEnvironment` have passed all its checks. -/
structure Settings where
  /-- How long a poller rests between two cycles. -/
  pollIntervalMs : Nat
  backend : Backend
  /-- The address of the database, needed by the backend of that kind only. -/
  databaseUrl : Option String
  transport : Transport
  /-- How long a completion that nobody claimed is held. -/
  holdSecs : Nat
  /-- How many such completions are held at a time. -/
  holdCapacity : Nat
  /-- Whether entries are written as objects. -/
  logJson : Bool
deriving DecidableEq

/-- The text of each variable that is set. A variable may be set to the empty text. -/
abbrev Environment := String → Option String

namespace Settings

/-- The settings of a process with no variable set. They pass every check. -/
def default : Settings where
  pollIntervalMs := 1000
  backend := .memory
  databaseUrl := none
  transport := .bus
  holdSecs := 600
  holdCapacity := 1024
  logJson := false

/-- A count from the variable `name`, with blanks around it allowed, or `unset`. It must fit into 64
bits without a sign. -/
def count (env : Environment) (name : String) (unset : Nat) : Except SettingsError Nat :=
  match env name with
  | none => .ok unset
  | some text => match Text.readCount Text.greatestWord (Text.trim text.toList) with
    | .ok n => .ok n
    | .error cause => .error (.notCount name cause)

/-- A choice from the variable `name`, read by `parse`. A variable that is set to the empty text is
set all the same. -/
def choice {α : Type} (env : Environment) (name : String)
    (parse : String → Except SettingsError α) (unset : α) : Except SettingsError α :=
  match env name with
  | none => .ok unset
  | some text => parse text

/-- Whether a text switches something on: it is `true` in any case, or `1`, with no blanks around
it. No other text is a fault. -/
def isOn (text : String) : Bool := text.toList.map Char.toLower = "true".toList || text = "1"

/-- Reads the settings, variable by variable. A poll interval of zero is refused, and a database
needs its address; an empty address is none. -/
def ofEnvironment (env : Environment) : Except SettingsError Settings := do
  let pollIntervalMs ← count env "RESUME_POLL_INTERVAL_MS" default.pollIntervalMs
  if pollIntervalMs = 0 then throw .zeroInterval
  let backend ← choice env "RESUME_STORE_BACKEND" Backend.parse default.backend
  let transport ← choice env "RESUME_EVENT_TRANSPORT" Transport.parse default.transport
  let databaseUrl := (env "DATABASE_URL").filter (· ≠ "")
  if backend = .postgres && databaseUrl.isNone then throw .missingUrl
  let holdSecs ← count env "RESUME_AWAIT_TTL_SECS" default.holdSecs
  let holdCapacity ← count env "RESUME_AWAIT_CAPACITY" default.holdCapacity
  let logJson := (env "RESUME_LOG_JSON").any isOn
  return { pollIntervalMs, backend, databaseUrl, transport, holdSecs, holdCapacity, logJson }

/-! ## Showing them -/

/-- A database address without what stands before its first at sign, which is where a user and a
password stand. An at sign of the password's own is taken for that sign, and what follows it is
shown. -/
def redact : Option String → String
  | none => "<not set>"
  | some url => match url.toList.dropWhile (· ≠ '@') with
    | [] => "<set>"
    | _ :: host => "***@" ++ String.ofList host

/-- The lines that announce the settings in use. All of the database address that they show is what
`redact` leaves of it. -/
def summary (s : Settings) : List String :=
  ["Config loaded:",
    s!"  RESUME_POLL_INTERVAL_MS: {s.pollIntervalMs}",
    s!"  RESUME_STORE_BACKEND: {s.backend.name}",
    s!"  RESUME_EVENT_TRANSPORT: {s.transport.name}",
    s!"  DATABASE_URL: {redact s.databaseUrl}",
    s!"  RESUME_AWAIT_TTL_SECS: {s.holdSecs} (capacity {s.holdCapacity})"]

end Settings

end Rendezvous
