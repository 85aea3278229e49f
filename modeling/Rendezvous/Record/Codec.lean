import Rendezvous.Instant.Writer
import Rendezvous.Json.Decoder
import Rendezvous.Record

/-!
# Records as JSON

A record is written as an object with all twelve fields. It is read from such an object, where
optional fields may be missing and unknown ones are passed over, or from the array of its fields.
-/

namespace Rendezvous.Record

/-- The object that a record is written as. Its fields stand in the order of their names, and a
missing value is written as null. -/
def encode (r : Record) : Json :=
  let time (t : Instant) := Json.str t.text
  let option {α : Type} (f : α → Json) (v : Option α) : Json := (v.map f).getD .null
  .obj [("canonical_key", .str r.key),
    ("event_timestamp", option time r.observedAt),
    ("event_type", option .str r.eventType),
    ("first_paused_at", option time r.firstPaused),
    ("last_retry_at", option time r.lastPaused),
    ("order_id", .str r.order),
    ("paused", .bool r.paused),
    ("payload", r.payload),
    ("recorded_at", time r.recordedAt),
    ("resume_ready", .bool r.ready),
    ("retry_count", .int r.retries.toInt),
    ("status", option .str r.status)]

open Decoder

/-- Reads a record from the fields of an object. They are decoded in the order of their names, so of
two faults the one in the smaller name is reported; that a field is missing is found only when all
have been decoded. -/
def ofFields (fields : List (String × Json)) : Except DecodeError Record := do
  let key ← field string "canonical_key" fields
  let observedAt ← optionalField instant "event_timestamp" fields
  let eventType ← optionalField string "event_type" fields
  let firstPaused ← optionalField instant "first_paused_at" fields
  let lastPaused ← optionalField instant "last_retry_at" fields
  let order ← field string "order_id" fields
  let paused ← field bool "paused" fields
  let payload ← field any "payload" fields
  let recordedAt ← field instant "recorded_at" fields
  let ready ← field bool "resume_ready" fields
  let retries ← field int32 "retry_count" fields
  let status ← optionalField string "status" fields
  return { key := ← required key, order := ← required order, eventType, observedAt,
           payload := ← required payload, paused := ← required paused, ready := ← required ready,
           retries := ← required retries, firstPaused, lastPaused, status,
           recordedAt := ← required recordedAt }

/-- Reads a record from the array of its fields, which stand in the order they are declared in. None
may be missing and none may follow. -/
def ofItems (items : List Json) : Except DecodeError Record := do
  let (key, items) ← next string items
  let (order, items) ← next string items
  let (eventType, items) ← next (optional string) items
  let (observedAt, items) ← next (optional instant) items
  let (payload, items) ← next any items
  let (paused, items) ← next bool items
  let (ready, items) ← next bool items
  let (retries, items) ← next int32 items
  let (firstPaused, items) ← next (optional instant) items
  let (lastPaused, items) ← next (optional instant) items
  let (status, items) ← next (optional string) items
  let (recordedAt, items) ← next instant items
  finished { key, order, eventType, observedAt, payload, paused, ready, retries, firstPaused,
             lastPaused, status, recordedAt } items

def decode : Decoder Record
  | .obj fields => ofFields fields
  | .arr items => ofItems items
  | _ => .error .malformed

end Rendezvous.Record
