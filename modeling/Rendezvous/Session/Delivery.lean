import Rendezvous.Session

/-!
# Deliveries in a session

Publishing on the buses of a session. A probe may publish again on the session's bus while it
handles an event, so deliveries nest; the nesting is bounded by the number of subscribers, for a
chain of probes that goes on longer would never end.
-/

namespace Rendezvous.Session

/-- Adds a subscriber to the session's bus and reports it. The number of the subscription is given
back. -/
def subscribeShared (c : Consumer) : Script Subscription := do
  let (id, bus) := (← get).bus.subscribe c
  modify ({ · with bus })
  Script.note (Bus.subscribed id c.reportName)
  return id

/-- Ends a subscription of the session's bus; whether there was one. -/
def unsubscribeShared (id : Subscription) : Script Bool := do
  let (found, bus) := (← get).bus.unsubscribe id
  modify ({ · with bus })
  return found

/-- What a probe does with an event; `again` publishes on the session's bus, from within the
delivery. -/
def behave (again : Record → Script Unit) (name : String) (e : Record) :
    Behaviour → Script Delivery
  | .record | .anonymous => return .accepted
  | .fail message => return .failed message
  | .crash message => return .crashed message
  | .spawn => do
    let _ ← subscribeShared (.probe s!"{name}.child" .record)
    return .accepted
  | .kill none => return .accepted
  | .kill (some id) => do
    let _ ← unsubscribeShared id
    return .accepted
  | .republish key => do
    if e.key ≠ key then again { e with key := key }
    return .accepted

/-- How a subscriber of a session deals with an event. An engine takes it in and never fails; a
probe has it noted before it does what it was told. -/
def handle (again : Record → Script Unit) (c : Consumer) (e : Record) : Script Delivery :=
  match c with
  | .engine g => do
    let _ ← Script.run (g.accept e)
    return .accepted
  | .probe name behaviour => do
    modify fun s => { s with seen := (name, e.key) :: s.seen }
    behave again name e behaviour

/-- How the subscribers of a session are dealt with by a bus, where `again` publishes on the
session's own. -/
def conduct (again : Record → Script Unit) : Bus.Conduct Script Consumer where
  name := Consumer.reportName
  handle := handle again
  note := Script.note

/-- Publishes on the session's bus, with deliveries nested at most `depth` deep. Beyond that nothing
is delivered. -/
def publishShared : Nat → Record → Script PublishCount
  | 0, _ => return ⟨0, 0⟩
  | depth + 1, e => do
    (← get).bus.publish (conduct fun e => do let _ ← publishShared depth e) e

/-- A bound on the nesting of deliveries, which only a chain of probes that goes on for ever can
reach. -/
def depth (s : Session) : Nat := s.bus.subscribers.length + 3

/-- Publishes on the session's bus. -/
def publish (e : Record) : Script PublishCount := do publishShared (depth (← get)) e

/-- Sends an event over the transport of the moment. The sender is not told what came of it; the
transport reports that. -/
def send (e : Record) : Script Unit := do
  match (← get).channel with
  | .direct g => Script.run (Transport.sendDirect g e)
  | .shared => do
    let r ← publish e
    Script.note (Transport.published e r)
  | .own bus => do
    let r ← bus.publish (conduct fun e => do let _ ← publish e) e
    Script.note (Transport.published e r)

/-! ## Subscribing over the transport -/

/-- Subscribes to the transport of the moment, if it has subscribers. -/
def subscribeChannel (c : Consumer) : Script (Option Subscription) := do
  match (← get).channel with
  | .direct _ => return none
  | .shared => return some (← subscribeShared c)
  | .own bus => do
    let (id, bus) := bus.subscribe c
    modify ({ · with channel := .own bus })
    Script.note (Bus.subscribed id c.reportName)
    return some id

/-- Ends a subscription of the transport of the moment; whether there was one, if it has subscribers
at all. -/
def unsubscribeChannel (id : Subscription) : Script (Option Bool) := do
  match (← get).channel with
  | .direct _ => return none
  | .shared => return some (← unsubscribeShared id)
  | .own bus => do
    let (found, bus) := bus.unsubscribe id
    modify ({ · with channel := .own bus })
    return some found

/-- Lists a new subscription, if there is one, so that later commands can name it by its place. -/
def listed (id : Option Subscription) : Script (Option Subscription) := do
  modify fun s => { s with subscriptions := s.subscriptions ++ id.toList }
  return id

/-- Has an engine subscribe to the transport of the moment (`attach_engine`), if it has
subscribers. -/
def attach (g : Engine) : Script (Option Subscription) := do
  let id ← subscribeChannel (.engine g)
  if let some id := id then
    Script.note (Transport.entry .info "Engine subscribed"
      [("transport", .plain Transport.bus.name), ("subscription", .shown id.text)])
  listed id

end Rendezvous.Session
