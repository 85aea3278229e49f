import Rendezvous.Procedure
import Rendezvous.Text.Blank

/-!
# The engine

The engine decides when a wait is over. It saves an accepted event, reads back what is kept under
the event's key, and makes a wait ready that the event satisfies. It holds no lock: of several
engines that try to make the same wait ready, the store lets one succeed, and only that one
completes its mailbox.

Failing store calls are reported and end in an outcome; nothing is tried again.
-/

namespace Rendezvous

/-- The way an accepted event went, `AcceptOutcome` in the system. Failing store calls end in an
outcome of their own, so taking an event in never fails. -/
inductive Outcome
  /-- It had no key and was dropped. -/
  | ignored
  /-- Nothing waits under its key. -/
  | recorded
  /-- The wait is for another type. -/
  | mismatch
  /-- This call made the wait ready. -/
  | resumeReady
  /-- The wait was ready before, or another call was faster. -/
  | alreadyReady
  /-- What is kept under the key could not be read back. -/
  | lookupFailed
  /-- The event is the right one, but the wait could not be made ready. -/
  | markFailed
deriving DecidableEq

def Outcome.name : Outcome → String
  | .ignored => "ignored"
  | .recorded => "recorded"
  | .mismatch => "mismatch"
  | .resumeReady => "resume_ready"
  | .alreadyReady => "already_ready"
  | .lookupFailed => "lookup_failed"
  | .markFailed => "mark_failed"

/-- The engine, `ResumeEngine` in the system. All it knows itself is the mailbox it completes when
it makes a wait ready; an engine without one completes nothing. -/
structure Engine where
  mailbox : Option MailboxId
deriving DecidableEq

namespace Engine

open Proc

def entry (level : Level) (message : String) (fields : List (String × LogValue)) : LogEntry :=
  ⟨level, "resume_engine::engine", message, fields⟩

/-- An entry of the engine about `key`, with the text of the fault if a store call failed. -/
def keyEntry (level : Level) (message key : String) (fault : Option Fault) : LogEntry :=
  entry level message (("key", .plain key) :: match fault with
    | some f => [("error", .shown f.message)]
    | none => [])

/-- Makes the wait `current` ready, if `e` is what it waits for and nobody was first. What is
decided here is decided on the record as it was read; the call that makes the wait ready looks at
nothing but its flag. -/
def resume (g : Engine) (e current : Record) : Proc Outcome :=
  if !current.paused then do
    note (keyEntry .debug "Event recorded; nothing paused on this key" e.key none)
    return .recorded
  else if !current.awaits e.eventType then do
    note (entry .info "Event type does not match paused context"
      [("key", .plain e.key), ("awaited", .shown (Text.quoteOption current.eventType)),
        ("received", .shown (Text.quoteOption e.eventType))])
    return .mismatch
  else if current.ready then do
    note (keyEntry .debug "Paused context already resume-ready" e.key none)
    return .alreadyReady
  else do
    match ← events (.markReady e.key) with
    | .ok true =>
      note (keyEntry .info "Paused context marked resume-ready" e.key none)
      if let some mailbox := g.mailbox then
        let _ ← complete mailbox e.key e
      return .resumeReady
    | .ok false =>
      note (keyEntry .debug "Another writer already marked resume-ready" e.key none)
      return .alreadyReady
    | .error f =>
      note (keyEntry .warn "Failed to mark resume-ready" e.key (some f))
      return .markFailed

/-- Takes an event in: saves it, reads back what is kept under its key and goes on with `resume`. A
failure to save is reported and passed over, as the wait may still be found; an event without a key
is dropped before any call. -/
def accept (g : Engine) (e : Record) : Proc Outcome :=
  if Text.blank e.key then do
    note (entry .warn "Ignoring event without canonical key"
      [("order_id", .shown e.order), ("event_type", .shown (Text.quoteOption e.eventType))])
    return .ignored
  else do
    if let .error f ← events (.save e) then
      note (keyEntry .warn "Failed to persist event (continuing)" e.key (some f))
    match ← events (.find e.key) with
    | .ok (some current) => g.resume e current
    | .ok none =>
      note (keyEntry .debug "No stored record after persist" e.key none)
      return .recorded
    | .error f =>
      note (keyEntry .warn "Failed to look up paused context" e.key (some f))
      return .lookupFailed

/-- Hands a ready record to the receivers that wait for it here (`wake_waiters`), as another engine
on the same store may have made it ready. Nothing is completed unless somebody waits, so nothing is
held. The number of receivers woken. -/
def wake (g : Engine) (r : Record) : Proc Nat :=
  match g.mailbox with
  | none => return 0
  | some mailbox =>
    if !r.ready then return 0
    else do
      if (← waiting mailbox r.key) = 0 then return 0
      else do
        let woken ← complete mailbox r.key r
        note (entry .debug "Woke waiters on ready context"
          [("key", .shown r.key), ("woken", .count woken)])
        return woken

/-- Whether the record under `key` is ready. A read that fails is reported and counts as not ready,
so the caller waits on. -/
def isReady (key : String) : Proc Bool := do
  match ← events (.isReady key) with
  | .ok ready => return ready
  | .error f =>
    note (keyEntry .warn "Failed to read resume-ready flag" key (some f))
    return false

end Engine

end Rendezvous
