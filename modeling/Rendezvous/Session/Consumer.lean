import Rendezvous.Transport

/-!
# Consumers of a session

What a session subscribes to its buses: an engine, or a probe that notes the event and then
behaves as it was told to. The channel is what the session sends over at the moment.
-/

namespace Rendezvous

/-- What a probe does with an event, having noted it. Some of this changes the bus while it
delivers. -/
inductive Behaviour
  | record
  /-- Records, and reports under no name of its own. -/
  | anonymous
  | fail (message : String)
  | crash (message : Option String)
  /-- Subscribes another recorder to the session's bus. -/
  | spawn
  /-- Ends a subscription of the session's bus. -/
  | kill (target : Option Subscription)
  /-- Publishes the event again on the session's bus under this key, unless it has it. -/
  | republish (key : String)
deriving DecidableEq

/-- A subscriber of a session: an engine, as a transport attaches it, or a probe with a name. -/
inductive Consumer
  | engine (g : Engine)
  | probe (name : String) (behaviour : Behaviour)
deriving DecidableEq

def Consumer.reportName : Consumer → String
  | .engine _ => Transport.engineName
  | .probe _ .anonymous => "consumer"
  | .probe name _ => name

/-- The transport that adapters send over at the moment. The session's bus stays there while another
one is in use. -/
inductive Channel
  /-- The session's bus. -/
  | shared
  /-- A bus of its own. -/
  | own (bus : Bus Consumer)
  | direct (g : Engine)

end Rendezvous
