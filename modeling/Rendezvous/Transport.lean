import Rendezvous.Bus
import Rendezvous.Engine
import Rendezvous.Settings

/-!
# Transports

An adapter sends its events over a transport and knows nothing else. A bus delivers an event to
whoever is subscribed, the engine among them once it is attached. A direct transport calls the
engine itself and has no subscribers.
-/

namespace Rendezvous

namespace Transport

def subscribable : Transport → Bool
  | .bus => true
  | .direct => false

def entry (level : Level) (message : String) (fields : List (String × LogValue)) : LogEntry :=
  ⟨level, "resume_engine::transport", message, fields⟩

/-- The name under which an engine subscribes to a bus, as it shows in the log. -/
def engineName : String := "resume-engine"

/-- What attaching an engine to a bus reports: the subscription, as for any subscriber, and whose it
is. -/
def attached (id : Subscription) : List LogEntry :=
  [Bus.subscribed id engineName,
    entry .info "Engine subscribed"
      [("transport", .plain Transport.bus.name), ("subscription", .shown id.text)]]

def published (e : Record) (r : PublishCount) : LogEntry :=
  entry .debug "Event published"
    [("key", .shown e.key), ("delivered", .count r.delivered), ("failed", .count r.failed)]

/-- Sends an event over a direct transport: the engine takes it in at once, and the outcome is
reported and not given back to the sender. -/
def sendDirect (g : Engine) (e : Record) : Proc Unit := do
  let outcome ← g.accept e
  Proc.note (entry .debug "Event delivered to engine"
    [("key", .shown e.key), ("outcome", .shown outcome.name)])

end Transport

end Rendezvous
