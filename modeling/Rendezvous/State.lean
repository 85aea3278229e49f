import Rendezvous.Procedure
import Rendezvous.RecordStore
import Rendezvous.ScenarioStore

/-!
# The state that procedures work on

The two stores, the mailboxes and a clock. `State.answer` says what each request does to them when
nothing fails.
-/

namespace Rendezvous

/-- The state behind all requests: the two stores that the components share, the mailboxes, each
with its own retention, and the clock. -/
structure State where
  events : RecordStore
  scenarios : ScenarioStore
  mailboxes : MailboxId → Mailbox
  retention : MailboxId → Retention
  /-- Milliseconds since `State.origin`. -/
  clock : Nat

namespace State

/-- The state at the start: nothing is kept, nobody waits, and the clock is at its origin. -/
def initial (retention : MailboxId → Retention) : State where
  events := .empty
  scenarios := .empty
  mailboxes := fun _ => .empty
  retention := retention
  clock := 0

/-- The second that the clock counts from, the start of the year 2026. Any other would do. -/
def origin : Int := 1767225600

def now (s : State) : Instant := Instant.ofMillis origin s.clock

/-- The state when `ms` milliseconds have passed and nothing has happened. -/
def wait (s : State) (ms : Nat) : State := { s with clock := s.clock + ms }

def setMailbox (s : State) (id : MailboxId) (a : Mailbox) : State :=
  { s with mailboxes := fun i => if i = id then a else s.mailboxes i }

/-- What a call on the store of event records answers, and what it makes of the store. Only a save,
a pause and a call to make a record ready change anything. -/
def answerEvents : (c : EventCall) → State → c.Answer × State
  | .save e, s => ((), { s with events := s.events.save e })
  | .latest order eventType, s => (s.events.latest? order eventType, s)
  | .find key, s => (s.events.find? key, s)
  | .markPaused context, s => ((), { s with events := s.events.markPaused context s.now })
  | .markReady key, s =>
    let (flipped, events) := s.events.markReady key
    (flipped, { s with events })
  | .isReady key, s => (s.events.isReady key, s)
  | .byOrder order, s => (s.events.byOrder order, s)
  | .paused, s => (s.events.paused, s)

def answerScenarios : (c : ScenarioCall) → State → c.Answer × State
  | .find key, s => (s.scenarios.find? key, s)
  | .save state, s => ((), { s with scenarios := s.scenarios.save state })
  | .delete key, s => ((), { s with scenarios := s.scenarios.delete key })
  | .clear, s => ((), { s with scenarios := .empty })

def register (s : State) (id : MailboxId) (key : String) : (Nat × Bool) × State :=
  let (answer, a) := (s.mailboxes id).register (s.retention id) s.clock key
  (answer, s.setMailbox id a)

def complete (s : State) (id : MailboxId) (key : String) (result : Record) : Completion × State :=
  let (answer, a) := (s.mailboxes id).complete (s.retention id) s.clock key result
  (answer, s.setMailbox id a)

/-- How requests are answered when no call fails. Only what is asked for changes, and time does not
pass by itself. -/
def answer : Proc.Handler State
  | .events c, s => let (x, s) := answerEvents c s; (.ok x, s)
  | .scenarios c, s => let (x, s) := answerScenarios c s; (.ok x, s)
  | .register id key, s => s.register id key
  | .complete id key result, s => s.complete id key result
  | .waiting id key, s => ((s.mailboxes id).waiting key, s)
  | .now, s => (s.now, s)
  | .note _, s => ((), s)

end State

end Rendezvous
