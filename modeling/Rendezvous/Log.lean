import Rendezvous.Json
import Rendezvous.Text.Quoted
import Rendezvous.Text.Terminal

/-!
# Log entries

What the components report: a level, the component, a message and named fields. On a line a plain
text stands quoted, while a shown value and a count stand as they are, and the message cannot steer
the terminal. As an object an entry keeps counts as numbers and all else as texts.
-/

namespace Rendezvous

/-- How much an entry matters. The system reports on all levels; a worker writes none below that of
an info. -/
inductive Level
  | debug
  | info
  | warn
  | error
deriving DecidableEq

def Level.name : Level → String
  | .debug => "DEBUG"
  | .info => "INFO"
  | .warn => "WARN"
  | .error => "ERROR"

/-- The value of a field. A plain text is quoted on a line, while a shown one stands there as its
component wrote it. -/
inductive LogValue
  | plain (text : String)
  | shown (text : String)
  | count (n : Nat)
deriving DecidableEq

def LogValue.text : LogValue → String
  | .plain t => Text.quote t
  | .shown t => t
  | .count n => toString n

/-- One report of a component. Its fields keep the order in which they were given, and the same name
may be given twice. -/
structure LogEntry where
  level : Level
  /-- The component that reports. -/
  source : String
  message : String
  fields : List (String × LogValue)
deriving DecidableEq

/-- The entry on a line; the level is set flush right in five columns. Only the message is made
inert, since the texts of the fields are quoted or come from the components. -/
def LogEntry.line (e : LogEntry) : String :=
  let level := "".pushn ' ' (5 - e.level.name.length) ++ e.level.name
  let fields := e.fields.map fun f => s!" {f.1}={f.2.text}"
  s!"{level} {e.source}: {Text.inert e.message}{String.join fields}"

def LogValue.json : LogValue → Json
  | .plain t | .shown t => .str t
  | .count n => .int n

/-- The entry as an object, with the message as the first of its fields. Counts stay numbers
here. -/
def LogEntry.json (e : LogEntry) : Json :=
  .obj [("fields", .obj (("message", .str e.message) :: e.fields.map fun f => (f.1, f.2.json))),
    ("level", .str e.level.name),
    ("target", .str e.source)]

end Rendezvous
