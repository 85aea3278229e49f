import Rendezvous.Instant.Writer
import Rendezvous.Progress
import Rendezvous.Text.Digits

/-!
# Verification steps

A step asks for an event of an order. If the event is there the step is recorded as a success,
and from then on it is skipped. Otherwise a wait is left behind under the step's own key. With a
mailbox the step can also wait: it registers a receiver, and when that is resolved it verifies a
second time.
-/

namespace Rendezvous

/-- Where a step runs, called `StepScope` in the system: the scenario, the feature and line it
stands in, and the name of the step. -/
structure StepSite where
  scenario : Scenario
  feature : String
  line : String
  step : String
deriving DecidableEq

/-- The key that the step waits under for an event. It differs from the key the event itself is
recorded under, so a wait and the event it is for are two records. -/
def StepSite.waitKey (site : StepSite) (order eventType : String) : String :=
  Key.forWait site.feature site.line site.scenario.exampleRow order eventType

/-- The answer to a verification that did not fail. Which answer it is follows from what was
recorded before and from what is stored now. -/
inductive Verification
  /-- The step succeeded before, and captured `data`. -/
  | skipped (data : Capture)
  | ready (e : Record)
  /-- A wait is kept under `key`. -/
  | notReady (key : String)
deriving DecidableEq

/-- What a step captures of the event it was waiting for. The type and the time are left out where
the event has none. -/
def Capture.ofEvent (e : Record) : Capture :=
  .ofList ([("orderId", e.order), ("canonicalKey", e.key)]
    ++ (e.eventType.map ("eventType", ·)).toList
    ++ (e.observedAt.map fun t => ("eventTimestamp", t.offsetText)).toList)

/-- What a step asks for: the latest event of a type for an order, on behalf of the step of a
scenario. -/
structure Question where
  site : StepSite
  order : String
  eventType : String
deriving DecidableEq

def Question.key (q : Question) : String := q.site.waitKey q.order q.eventType

/-- How a wait for a receiver ends: with a result, because nobody can send one any more, or because
its time is up. -/
inductive Wakeup
  | resolved
  | closed
  | timedOut
deriving DecidableEq

/-- The verifier, `StepVerifier` in the system. Without a mailbox it only answers; with one it can
also wait. -/
structure Verifier where
  mailbox : Option MailboxId
deriving DecidableEq

namespace Verifier

open Proc

def entry (level : Level) (message : String) (fields : List (String × LogValue)) : LogEntry :=
  ⟨level, "resume_engine::verify", message, fields⟩

/-- The wait that a step leaves behind: under the key of the step, for the order and type it asks
for, and marked as waiting. -/
def placeholder (q : Question) (time : Instant) : Record :=
  { Record.placeholder q.key q.order (some q.eventType) time with status := some "WAITING" }

/-- Looks the event up and records the step as a success if it is there. If not, a wait is left
behind and the step is recorded as pending. Only the look-up and the pause can fail; a failure to
record is reported by `Progress.mark` and otherwise ignored. -/
def ask (q : Question) : Proc (Except Fault Verification) := do
  match ← events (.latest q.order q.eventType) with
  | .error f => return .error f
  | .ok (some e) =>
    Progress.mark q.site.scenario q.site.step .success (some (.ofEvent e))
    return .ok (.ready e)
  | .ok none =>
    match ← events (.markPaused (placeholder q (← now))) with
    | .error f => return .error f
    | .ok () =>
      Progress.mark q.site.scenario q.site.step .pending none
      note (entry .info "Event not arrived yet, scenario paused"
        [("scenario", .shown q.site.scenario.key), ("step", .plain q.site.step),
          ("key", .shown q.key)])
      return .ok (.notReady q.key)

/-- One verification, `verify_event` in the system: a step that is known to have passed is skipped,
and any other asks for its event. -/
def verify (q : Question) : Proc (Except Fault Verification) := do
  if ← Progress.succeeded q.site.scenario q.site.step then
    note (entry .debug "Step already passed, skipping"
      [("scenario", .shown q.site.scenario.key), ("step", .plain q.site.step)])
    return .ok (.skipped (← Progress.data q.site.scenario q.site.step))
  else ask q

/-! ## Waiting -/

/-- How far `verify_or_wait` has come: it is over, or it waits for a receiver. What ends the wait is
up to whoever runs it. -/
inductive Stage
  | finished (result : Except Fault Verification)
  | waiting (mailbox : MailboxId) (receiver : Nat)

/-- The first half of `verify_or_wait`: verifies, and registers a receiver if the event is not there
and there is a mailbox. -/
def start (v : Verifier) (q : Question) : Proc Stage := do
  match ← verify q, v.mailbox with
  | .ok (.notReady key), some mailbox => return .waiting mailbox (← register mailbox key)
  | result, _ => return .finished result

/-- The second half of `verify_or_wait`, when the wait has ended. A resolved receiver is only a
reason to verify again; a wait that times out or is cut off is answered as at the start. -/
def finish (q : Question) (timeout : Nat) : Wakeup → Proc (Except Fault Verification)
  | .resolved => verify q
  | .closed => return .ok (.notReady q.key)
  | .timedOut => do
    note (entry .info "Timed out waiting for event"
      [("key", .shown q.key), ("timeout", .shown (Text.span timeout))])
    return .ok (.notReady q.key)

end Verifier

end Rendezvous
