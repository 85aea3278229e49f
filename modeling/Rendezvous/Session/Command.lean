import Rendezvous.Json.Decoder
import Rendezvous.Record.Draft
import Rendezvous.Session

/-!
# Commands and replies

What a session can be told to do, and what it answers. A command that could not be understood
takes its place in the session all the same: it takes time and fails.
-/

namespace Rendezvous.Session

/-- Why a command failed. A fault of a store is among the reasons only where the component itself
hands it on to its caller. -/
inductive Failure
  /-- The named part of the input cannot be used. -/
  | badInput (field : String)
  | malformed (e : DecodeError)
  | status (e : StatusError)
  | settings (e : SettingsError)
  | store (f : Fault)

def Failure.message : Failure → Option String
  | .badInput field => some field
  | .malformed .malformed => none
  | .malformed (.status e) => some e.message
  | .status e => some e.message
  | .settings e => some e.message
  | .store f => some f.message

/-- Which of the two stores. -/
inductive StoreName
  | events
  | scenarios

/-- A probe to be subscribed. Its target, where it ends a subscription, is an index into those
listed so far. -/
structure Probe where
  name : String
  behaviour : Behaviour
  target : Option Nat

/-- What a session can be told. Most commands are one call on one component; others change the
faults, the parts that are put together or the time. -/
inductive Command
  | save (d : Draft)
  | markPaused (d : Draft)
  | latest (order eventType : String)
  | find (key : String)
  | markReady (key : String)
  | storedReady (key : String)
  | byOrder (order : String)
  | paused
  | records
  | fail (store : StoreName) (method : String) (rule : FaultRule)
  | heal (store : StoreName)
  | accept (side : Side) (d : Draft)
  | isReady (key : String)
  | wakeStored (side : Side) (key : String)
  | wake (side : Side) (d : Draft)
  | poll (side : Side)
  | pollerName (side : Side)
  | spawn (side : Side)
  | signal (switch : Nat) (stop : Bool)
  | dropSignal (switch : Nat)
  | ended (switch : Nat)
  | advance (ms : Nat)
  | jump (ms : Nat)
  | subscribe (probe : Probe)
  | unsubscribe (index : Option Nat)
  | publish (d : Draft)
  | countSubscribers
  | seen
  | buildTransport (kind : Transport) (side : Side)
  | useBus
  | attach (side : Side)
  | subscribeTransport (probe : Probe)
  | unsubscribeTransport (index : Option Nat)
  | send (d : Draft)
  | register (side : Side) (key slot : String)
  | complete (side : Side) (key : String) (d : Draft)
  | receive (slot : String)
  | dropSlot (slot : String)
  | waiting (side : Side) (key : String)
  | unclaimed (side : Side)
  | mark (scenario : Scenario) (step : String) (status : StepStatus) (data : Option Capture)
  | succeeded (scenario : Scenario) (step : String)
  | captured (scenario : Scenario) (step : String)
  | setStatus (scenario : Scenario) (status : ScenarioStatus)
  | clear (scenario : Scenario)
  | clearAll
  | findState (key : String)
  | saveState (s : ScenarioState)
  | deleteState (key : String)
  | deleteStates
  | countStates
  | waitKey (q : Question)
  | verify (q : Question)
  /-- Verifies and waits, while each command is carried out so long after the start. -/
  | verifyOrWait (q : Question) (timeout : Nat) (meanwhile : List (Nat × Command))
  | assembly
  | addPoller (name : String) (intervalMs : Nat) (side : Side)
  | startPollers
  | refused (f : Failure)

/-- What a session answers to a command that did not fail; there is one kind of reply for each kind
of result. -/
inductive Reply
  | done
  | flag (b : Bool)
  | optionalFlag (b : Option Bool)
  | flags (bs : List Bool)
  | count (n : Nat)
  | optionalCount (n : Option Nat)
  | text (s : String)
  | record (r : Option Record)
  | records (rs : List Record)
  | stats (s : Tally)
  | subscription (id : Option Subscription)
  | report (r : PublishCount)
  | deliveries (ds : List (String × String))
  | transport (kind : Transport)
  | receipt (r : Mailbox.Receipt)
  | state (s : Option ScenarioState)
  | data (d : Capture)
  | size (n : Nat)
  | verification (v : Verification)
  /-- The result, how long it took, and the replies to what was done in the meantime. -/
  | waited (result : Except Failure Verification) (ms : Nat)
      (meanwhile : List (Except Failure Reply))
  | assembly (kind : Transport) (subscription : Option Subscription) (pollers : List String)

end Rendezvous.Session
