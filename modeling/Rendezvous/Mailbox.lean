import Rendezvous.Record

/-!
# The mailbox

The bridge between a blocked scenario and the engine that detects its event. `register` hands out
a receiver for a key and `complete` resolves every receiver that waits for it. A completion that
reaches nobody is held, for a limited time and in a limited number, and goes to the next receiver
registered for its key.

A receiver is known by its number. It is pending until it is resolved or dropped, and a resolved
one gives its result once. Times are milliseconds of one clock.
-/

namespace Rendezvous

/-- What a registration hands out, and how it stands. A receiver is pending until a completion
resolves it or its owner gives it up; the result of a resolved one is taken out once. -/
inductive Receiver
  | pending
  | resolved (result : Record)
  | received
  | dropped
deriving DecidableEq

/-- A completion that nobody was there to receive, with the time it came. It is held for a receiver
that is registered later. -/
structure Held where
  result : Record
  since : Nat
deriving DecidableEq

/-- How long and how many completions are held. Of several that came at the same time the system
drops any one when it needs room, so which one is left open here. -/
structure Retention where
  ttl : Nat
  /-- At least one is held, also when the capacity is zero. -/
  capacity : Nat
  /-- Which of several equally old completions leaves a full buffer: its place in their list,
  counted around. -/
  place : List String → Nat

/-- The mailbox, called `Awaiter` in the system. Its receivers stand in the order in which they were
registered and are known by their place; `waiters` lists for each key the receivers registered for
it, and `held` keeps the completions that reached nobody. -/
structure Mailbox where
  receivers : List Receiver
  waiters : Table (List Nat)
  held : Table Held
deriving DecidableEq

/-- What a completion comes to: how many receivers it resolved, and what had to give way if it
resolved none and the buffer was full. -/
structure Completion where
  delivered : Nat
  /-- The key whose completion left a full buffer. -/
  evicted : Option String
deriving DecidableEq

namespace Mailbox

def empty : Mailbox := ⟨[], .empty, .empty⟩

instance : Inhabited Mailbox := ⟨empty⟩

/-- Whether receiver `id` can still be resolved. A receiver that was given up cannot, although its
number may still be listed under its key until the next pruning. -/
def isPending (a : Mailbox) (id : Nat) : Bool := a.receivers[id]? = some .pending

/-- Drops the completions that have expired, and those waiters whose receiver is gone. A key with no
waiters left is not listed any more. -/
def prune (a : Mailbox) (ret : Retention) (now : Nat) : Mailbox :=
  { a with
    waiters := (a.waiters.mapValues (·.filter a.isPending)).filter fun _ ids => ids ≠ []
    held := a.held.filter fun _ h => now - h.since < ret.ttl }

/-- A new receiver for `key`: its number, and whether a completion that is held for the key resolved
it at once. Such a completion is used up by it. -/
def register (a : Mailbox) (ret : Retention) (now : Nat) (key : String) : (Nat × Bool) × Mailbox :=
  let a := a.prune ret now
  let id := a.receivers.length
  match a.held.get? key with
  | some h => ((id, true),
      { a with receivers := a.receivers ++ [.resolved h.result], held := a.held.erase key })
  | none => ((id, false),
      { a with
        receivers := a.receivers ++ [.pending]
        waiters := a.waiters.insert key ((a.waiters.get? key).getD [] ++ [id]) })

def resolve (a : Mailbox) (result : Record) (ids : List Nat) : Mailbox :=
  { a with receivers := ids.foldl (fun rs id => rs.set id (.resolved result)) a.receivers }

/-- The keys of the completions held longest. Time is counted in milliseconds, so there may be
several of them. -/
def oldest (a : Mailbox) : List String :=
  (a.held.entries.filter fun e => a.held.entries.all fun d => e.2.since ≤ d.2.since).map (·.1)

/-- The key whose completion makes room for one of `key`. Room is needed only when the buffer is
full and nothing is held for `key` itself, as that would be replaced. -/
def evictee (a : Mailbox) (ret : Retention) (key : String) : Option String :=
  if max 1 ret.capacity ≤ a.held.size && !a.held.contains key then
    a.oldest[ret.place a.oldest % a.oldest.length]?
  else none

/-- Holds a completion that reached nobody, in place of an earlier one of the key; the key that was
driven out to make room for it. -/
def hold (a : Mailbox) (ret : Retention) (now : Nat) (key : String) (result : Record) :
    Option String × Mailbox :=
  let a := a.prune ret now
  let evicted := a.evictee ret key
  let held := match evicted with
    | some k => a.held.erase k
    | none => a.held
  (evicted, { a with held := held.insert key ⟨result, now⟩ })

/-- Resolves all pending receivers registered for `key` and forgets about them. A completion that
finds none is held for a later one. -/
def complete (a : Mailbox) (ret : Retention) (now : Nat) (key : String) (result : Record) :
    Completion × Mailbox :=
  let live := ((a.waiters.get? key).getD []).filter a.isPending
  let a := { a with waiters := a.waiters.erase key }.resolve result live
  if live = [] then
    let (evicted, a) := a.hold ret now key result
    (⟨0, evicted⟩, a)
  else (⟨live.length, none⟩, a)

/-- How many pending receivers wait for `key`. Those that were given up are not counted, though they
may be listed still. -/
def waiting (a : Mailbox) (key : String) : Nat :=
  (((a.waiters.get? key).getD []).filter a.isPending).length

/-- How many completions are held for receivers to come, not counting those that have expired by
now. -/
def unclaimed (a : Mailbox) (ret : Retention) (now : Nat) : Nat × Mailbox :=
  let a := a.prune ret now
  (a.held.size, a)

/-! ## The receiving side -/

/-- What a look at a receiver gives: its result, nothing yet, or the news that nothing will ever
come. -/
inductive Receipt
  | result (r : Record)
  | pending
  | closed

/-- Takes the result out of a receiver. The next look finds it closed, as it does after the receiver
was given up. -/
def receive (a : Mailbox) (id : Nat) : Receipt × Mailbox :=
  match a.receivers[id]? with
  | some (.resolved r) => (.result r, { a with receivers := a.receivers.set id .received })
  | some .pending => (.pending, a)
  | _ => (.closed, a)

/-- Gives a receiver up. It stays listed under its key until the next pruning and counts as gone
from now on. -/
def drop (a : Mailbox) (id : Nat) : Mailbox :=
  { a with receivers := a.receivers.set id .dropped }

end Mailbox

end Rendezvous
