import Rendezvous.Record

/-!
# Drafts of records

A draft says what record to hand over; the record itself is made at the time of the hand-over.
-/

namespace Rendezvous

/-- What a draft starts from: an event that is seen, a wait that is made, or a record as it is
given. -/
inductive Draft.Origin
  | observed (order eventType : String) (payload : Json)
  | placeholder (key order : String) (eventType : Option String)
  | given (r : Record)

/-- An origin, and the fields that are set on top of it. What is left open stays as the origin makes
it. -/
structure Draft where
  origin : Draft.Origin
  key : Option String
  observedAt : Option Instant
  status : Option String

def Draft.Origin.make (now : Instant) : Draft.Origin → Record
  | .observed order eventType payload => .observed order eventType payload now
  | .placeholder key order eventType => .placeholder key order eventType now
  | .given r => r

/-- The record that is handed over at the time `now`: that of the origin, with the fields set that
the draft names. -/
def Draft.make (d : Draft) (now : Instant) : Record :=
  let r := d.origin.make now
  { r with
    key := d.key.getD r.key
    observedAt := d.observedAt <|> r.observedAt
    status := d.status <|> r.status }

end Rendezvous
