import Rendezvous.Instant
import Rendezvous.Json
import Rendezvous.Key

/-!
# Event records

A record is kept under a correlation key. It holds an observed event, a wait for one, or both: a
wait that has taken in the event it was waiting for. What tells an observation from a bare wait is
the event's own time, `observedAt`; what makes a record a wait is `paused`.

The fields from `paused` to `lastPaused` belong to the wait. They change when the wait is paused
or made ready and at no other time, whatever an adapter puts into the records it hands over.
-/

namespace Rendezvous

/-- An event record, called `EventContext` in the system: an observed event, a wait for one, or a
wait that has taken its event in. There is at most one under each key. -/
structure Record where
  key : String
  order : String
  /-- The type observed, or awaited. A wait without one accepts any type. -/
  eventType : Option String
  /-- The time of the event itself; a bare wait has none. -/
  observedAt : Option Instant
  payload : Json
  paused : Bool
  /-- The wait has been satisfied. This is set once and stays. -/
  ready : Bool
  /-- How often the wait was paused. -/
  retries : Int32
  /-- When the wait was paused for the first time. -/
  firstPaused : Option Instant
  /-- When it was paused last. -/
  lastPaused : Option Instant
  /-- A word on the state of the record, for those who look into the store. -/
  status : Option String
  /-- When the observation was written down. -/
  recordedAt : Instant
deriving DecidableEq

namespace Record

/-- An event that an adapter has just seen, under its order's key. It waits for nothing. -/
def observed (order eventType : String) (payload : Json) (now : Instant) : Record where
  key := Key.forOrder order eventType
  order := order
  eventType := some eventType
  observedAt := some now
  payload := payload
  paused := false
  ready := false
  retries := 0
  firstPaused := none
  lastPaused := none
  status := none
  recordedAt := now

/-- A wait for an event of the order, under `key`, with no observation. It says of itself that it is
paused; a store takes that from `markPaused` alone. -/
def placeholder (key order : String) (eventType : Option String) (now : Instant) : Record where
  key := key
  order := order
  eventType := eventType
  observedAt := none
  payload := .null
  paused := true
  ready := false
  retries := 0
  firstPaused := none
  lastPaused := none
  status := none
  recordedAt := now

/-- Whether the record shows an event, and is not only a wait for one. The time of the event tells,
not the payload. -/
def isObserved (r : Record) : Bool := r.observedAt.isSome

/-- The record, read as a wait, accepts an event of type `t`. An event without a type satisfies only
a wait without one. -/
def awaits (r : Record) (t : Option String) : Bool :=
  match r.eventType with
  | none => true
  | some expected => t = some expected

/-- The record with a wait that was never paused. This is what is kept of a record that is saved
under a new key, whatever its adapter wrote into the fields of the wait. -/
def fresh (r : Record) : Record :=
  { r with paused := false, ready := false, retries := 0, firstPaused := none, lastPaused := none }

/-! ## Event times -/

/-- Earlier times come first, and no time before any. Event times are compared so, and the times of
first pauses. -/
def timeLe : Option Instant → Option Instant → Bool
  | none, _ => true
  | some _, none => false
  | some s, some t => s ≤ t

theorem timeLe_total (s t : Option Instant) : timeLe s t = true ∨ timeLe t s = true := by
  cases s <;> cases t <;> simp [timeLe, Instant.le_total]

theorem timeLe_trans (s t u : Option Instant) (h : timeLe s t = true) (h' : timeLe t u = true) :
    timeLe s u = true := by
  cases s <;> cases t <;> cases u <;> simp_all [timeLe]
  exact Instant.le_trans h h'

/-- The record observed last, and of several the one listed last; there is one unless the list is
empty. -/
def newest? : List Record → Option Record
  | [] => none
  | r :: l => match newest? l with
    | none => some r
    | some best => if timeLe r.observedAt best.observedAt then some best else some r

end Record

end Rendezvous
