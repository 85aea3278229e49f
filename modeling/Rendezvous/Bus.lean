import Rendezvous.Log
import Rendezvous.Record

/-!
# The bus

Subscribers in the order they subscribed, each under a number that is never given twice (see
`Subscription` for the bound that this is under in the system). An event is delivered to the
subscribers of the moment it is published, one after the other; one that fails or crashes is
reported and counted, and the next one gets the event all the same.

What a subscriber does with an event is the business of `handle`, in a monad of the caller's
choice, so a subscriber may also change the bus it is subscribed to.
-/

namespace Rendezvous

/-- The number of a subscription, `SubscriptionId` in the system, where it is an unsigned number of
64 bits. It is a natural number here: the two agree for the first `2 ^ 64` subscriptions of a bus,
after which the system would begin to give numbers out again. -/
structure Subscription where
  number : Nat
deriving DecidableEq

def Subscription.text (id : Subscription) : String := s!"sub-{id.number}"

/-- How the handling of one event ended. A subscriber that crashes takes nobody down with it; the
bus notes what it left behind. -/
inductive Delivery
  | accepted
  | failed (message : String)
  /-- With what it left behind, if that was a text. -/
  | crashed (message : Option String)
deriving DecidableEq

/-- How many subscribers took an event in, and how many failed or crashed over it
(`PublishReport`). -/
structure PublishCount where
  delivered : Nat
  failed : Nat
deriving DecidableEq

/-- Counts one more delivery. Only an event that was taken in counts as delivered; a failure and a
crash count the same. -/
def PublishCount.count (r : PublishCount) : Delivery → PublishCount
  | .accepted => { r with delivered := r.delivered + 1 }
  | _ => { r with failed := r.failed + 1 }

/-- A bus, `EventBus` in the system: the subscribers in the order they subscribed, each with its
subscription, and the number of the next one. That number counts on without end here and within 64
bits in the system, so what is said of a bus is said of one with at most `2 ^ 64` subscriptions
made. -/
structure Bus (κ : Type) where
  subscribers : List (Subscription × κ)
  nextId : Nat

namespace Bus

variable {κ : Type} {m : Type → Type} [Monad m]

def empty : Bus κ := ⟨[], 0⟩

instance : Inhabited (Bus κ) := ⟨empty⟩

/-- Adds a subscriber behind all others, under a number that was not given before. The same
subscriber may be added again and is called once for each subscription. -/
def subscribe (b : Bus κ) (c : κ) : Subscription × Bus κ :=
  (⟨b.nextId⟩, { subscribers := b.subscribers ++ [(⟨b.nextId⟩, c)], nextId := b.nextId + 1 })

/-- Ends the subscription `id`, and says whether there was one. Other subscriptions keep their
places and their numbers. -/
def unsubscribe (b : Bus κ) (id : Subscription) : Bool × Bus κ :=
  (b.subscribers.any (·.1 = id), { b with subscribers := b.subscribers.filter (·.1 ≠ id) })

/-! ## What it reports -/

def entry (level : Level) (message : String) (fields : List (String × LogValue)) : LogEntry :=
  ⟨level, "resume_engine::bus", message, fields⟩

def subscribed (id : Subscription) (name : String) : LogEntry :=
  entry .debug "Subscribed to event bus"
    [("subscription", .shown id.text), ("consumer", .shown name)]

def unheard (e : Record) : LogEntry :=
  entry .debug "Published with no subscribers" [("key", .shown e.key)]

/-- The entry about a delivery that went wrong, with what the subscriber said. A subscriber that
took the event in is not mentioned. -/
def complaint (id : Subscription) (name : String) (e : Record) : Delivery → Option LogEntry
  | .accepted => none
  | .failed message => some <| entry .warn "Event consumer failed"
      [("subscription", .shown id.text), ("consumer", .plain name), ("key", .shown e.key),
        ("error", .shown message)]
  | .crashed message => some <| entry .error "Event consumer panicked"
      [("subscription", .shown id.text), ("consumer", .plain name), ("key", .shown e.key),
        ("panic", .shown (message.getD "non-string panic payload"))]

/-! ## Publishing -/

/-- How subscribers of a kind are dealt with: what they are called in the log, what they do with an
event, and where a report about them goes. -/
structure Conduct (m : Type → Type) (κ : Type) where
  name : κ → String
  handle : κ → Record → m Delivery
  note : LogEntry → m Unit

/-- Calls the subscribers of a list, one after the other, and counts how they dealt with the event.
Whatever one of them does, the next one is called with the same event. -/
def deliver (conduct : Conduct m κ) (e : Record) :
    PublishCount → List (Subscription × κ) → m PublishCount
  | r, [] => pure r
  | r, (id, c) :: rest => do
    let delivery ← conduct.handle c e
    if let some entry := complaint id (conduct.name c) e delivery then conduct.note entry
    deliver conduct e (r.count delivery) rest

/-- Delivers an event to those subscribed now. The list is read once, before the first subscriber is
called, so subscriptions made or ended while the event is delivered make no difference to it. -/
def publish (b : Bus κ) (conduct : Conduct m κ) (e : Record) : m PublishCount :=
  if b.subscribers.isEmpty then do
    conduct.note (unheard e)
    return ⟨0, 0⟩
  else deliver conduct e ⟨0, 0⟩ b.subscribers

end Bus

end Rendezvous
