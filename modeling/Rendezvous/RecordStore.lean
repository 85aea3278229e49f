import Rendezvous.Record
import Rendezvous.Sorting

/-!
# The record store

Records by key. Three writes touch a record, each only the one under its own key: `save` merges an
observation in, `markPaused` starts or repeats a wait, and `markReady` ends one. A saved
observation never changes what belongs to the wait, and a wait for another type does not take it
in at all. What a write does to a look-up is said by `find?_save`, `find?_markPaused` and
`find?_markReady`.

Nothing but ties depends on the order in which a store hands out its records
(`RecordStore.answers_but_for_ties`).
-/

namespace Rendezvous

/-- The store of event records: what `EventStore` promises and `MemoryEventStore` keeps. One record
per key, so a write is a change of one record and concerns no other. -/
structure RecordStore where
  records : Table Record
deriving DecidableEq

namespace Record

/-- Takes over what the observation `e` says; what it leaves open stays. The fields of the wait are
not touched. -/
def absorb (r e : Record) : Record :=
  { r with
    observedAt := e.observedAt <|> r.observedAt
    payload := e.payload
    status := e.status <|> r.status
    recordedAt := e.recordedAt }

/-- What becomes of the record `r` when `e` is saved under its key. A wait keeps its type, and its
order unless it had none, and does not take in an event of another type at all. A record that is no
wait is overwritten. -/
def merge (r e : Record) : Record :=
  if r.paused then
    if r.awaits e.eventType then
      { r with order := if r.order = "" then e.order else r.order }.absorb e
    else r
  else { r with order := e.order, eventType := e.eventType }.absorb e

/-- Repeats a wait as `context` asks for it, and counts the pause: a type it names is the one
awaited from now on. A wait that was ready stays so. -/
def pause (r context : Record) (now : Instant) : Record :=
  { r with
    paused := true
    eventType := context.eventType <|> r.eventType
    order := if r.order = "" then context.order else r.order
    firstPaused := r.firstPaused <|> some now
    lastPaused := some now
    retries := r.retries + 1 }

end Record

namespace RecordStore

def empty : RecordStore := ⟨.empty⟩

instance : Inhabited RecordStore := ⟨empty⟩

/-! ## Writes -/

/-- Saves an observation: merges it into what is there, or starts a record. Under a new key nothing
is waiting yet, whatever the fields of `e` say. -/
def save (s : RecordStore) (e : Record) : RecordStore :=
  ⟨s.records.insert e.key (match s.records.get? e.key with
    | some r => r.merge e
    | none => e.fresh)⟩

/-- Pauses the wait that `context` describes, at the time `now`. It is made if there is no record
under the key, and an observation that is there becomes a wait that holds it. -/
def markPaused (s : RecordStore) (context : Record) (now : Instant) : RecordStore :=
  ⟨s.records.insert context.key
    (((s.records.get? context.key).getD context.fresh).pause context now)⟩

/-- Makes the record under `key` ready (`mark_resume_ready`), and says whether this call did so. No
other field is looked at, the type that is awaited among them. -/
def markReady (s : RecordStore) (key : String) : Bool × RecordStore :=
  match s.records.get? key with
  | some r => if r.ready then (false, s)
      else (true, ⟨s.records.insert key { r with ready := true }⟩)
  | none => (false, s)

/-! ## Reads -/

/-- The record under `key` (`find_by_canonical_key`). -/
def find? (s : RecordStore) (key : String) : Option Record := s.records.get? key

theorem find?_save (s : RecordStore) (e : Record) (key : String) :
    (s.save e).find? key =
      if key = e.key then some (match s.find? key with
        | some r => r.merge e
        | none => e.fresh)
      else s.find? key := by
  show (s.records.insert e.key _).get? key = _
  rw [Table.get?_insert]
  split
  · subst key; rfl
  · rfl

theorem find?_markPaused (s : RecordStore) (context : Record) (now : Instant) (key : String) :
    (s.markPaused context now).find? key =
      if key = context.key then some (((s.find? key).getD context.fresh).pause context now)
      else s.find? key := by
  show (s.records.insert context.key _).get? key = _
  rw [Table.get?_insert]
  split
  · subst key; rfl
  · rfl

theorem find?_markReady (s : RecordStore) (k key : String) :
    (s.markReady k).2.find? key =
      if key = k then (s.find? key).map ({ · with ready := true }) else s.find? key := by
  unfold markReady find?
  split
  · rename_i r h
    split
    · split
      · subst key
        rename_i hr
        rw [h, Option.map_some]
        exact congrArg some (by cases r; simp_all)
      · rfl
    · show (s.records.insert k _).get? key = _
      rw [Table.get?_insert]
      split
      · subst key; rw [h]; rfl
      · rfl
  · rename_i h
    split
    · subst key; rw [h]; rfl
    · rfl

/-- The first call on a record that is kept makes it ready, and no other call does. -/
theorem markReady_fst (s : RecordStore) (key : String) :
    (s.markReady key).1 = true ↔ ∃ r, s.find? key = some r ∧ r.ready = false := by
  unfold markReady find?
  split
  · rename_i r h
    split <;> simp_all
  · rename_i h
    simp [h]

/-- Whether the record under `key` is ready (`is_resume_ready`); where there is none, nothing is. -/
def isReady (s : RecordStore) (key : String) : Bool := (s.find? key).any (·.ready)

/-! ## Queries

A query is a function of the list that a store hands out of what it keeps. Here that list goes by
key; a store may go by any other order, which tells in the answers only where two records tie. -/

/-- Of what a store hands out, the last observation of the order and type. Of several observed at
the same time it is the one handed out last. -/
def latestOf? (l : List Record) (order eventType : String) : Option Record :=
  Record.newest? (l.filter fun r =>
    r.order = order && r.eventType = some eventType && r.isObserved)

/-- Of what a store hands out, the records of an order, in the order they were recorded. Records of
one time stay in the order they were handed out in. -/
def listByOrder (l : List Record) (order : String) : List Record :=
  Sorting.sort (fun r q => r.recordedAt ≤ q.recordedAt) (l.filter (·.order = order))

/-- Of what a store hands out, the waits, first come first. Waits first paused at one time stay in
the order they were handed out in. -/
def listPaused (l : List Record) : List Record :=
  Sorting.sort (fun r q => Record.timeLe r.firstPaused q.firstPaused) (l.filter (·.paused))

/-- The last observation of the order and type (`find_latest`). Bare waits are never given out, but
a wait that holds an observation may be. -/
def latest? (s : RecordStore) (order eventType : String) : Option Record :=
  latestOf? s.records.values order eventType

/-- The records of an order, in the order they were recorded (`find_by_order_id`). -/
def byOrder (s : RecordStore) (order : String) : List Record := listByOrder s.records.values order

/-- All waits, ready or not, first come first (`find_paused`). -/
def paused (s : RecordStore) : List Record := listPaused s.records.values

end RecordStore

end Rendezvous
