import Rendezvous.Assembly
import Rendezvous.Schedule
import Rendezvous.Session.Consumer
import Rendezvous.Session.Fault
import Rendezvous.State

/-!
# Sessions

A session drives the components by hand. Two sides `x` and `y` share one record store; each has a
mailbox, an engine and a poller of its own. Store calls can be made to fail, calls and log entries
of a step are collected, and time passes only when a step says so: the clock by a second at the
start of each step, the timer of the pollers and waits where a step advances it.
-/

namespace Rendezvous

/-- The two sides of a session. Each has an engine, a poller and a mailbox of its own, as two
processes on one store would. -/
inductive Side
  | x
  | y
deriving DecidableEq

namespace Side

def name : Side → String
  | .x => "x"
  | .y => "y"

def mailbox : Side → MailboxId
  | .x => 0
  | .y => 1

end Side

/-! ## The state of a session -/

/-- A verification that waits for its receiver, called `verify_or_wait` in the system. It is over
when it has an outcome, and stays listed until it is asked for it. -/
structure Wait where
  question : Question
  /-- How long it was to wait at most, for the report of a time out. -/
  timeout : Nat
  /-- The timer when it stops waiting. -/
  deadline : Nat
  mailbox : MailboxId
  receiver : Nat
  /-- The result, and the timer when it came. -/
  outcome : Option (Except Fault Verification × Nat)

/-- All there is in a session: the state the components work on, what makes their calls fail, what
they have reported in this step, and the parts that were put together so far. -/
structure Session where
  state : State
  eventFaults : FaultRules
  scenarioFaults : FaultRules
  /-- Entries of the step, the last one first. -/
  log : List LogEntry
  /-- Store calls of the step, the last one first. -/
  calls : List String
  engineX : Engine
  pollerX : Poller
  intervalMs : Nat
  verifier : Verifier
  /-- What was put together from settings, if anything was. -/
  assembly : Option Assembly
  /-- The session's own bus. -/
  bus : Bus Consumer
  /-- What is sent over at the moment. -/
  channel : Channel
  /-- Subscriptions in the order in which they were made, for later reference. -/
  subscriptions : List Subscription
  /-- Deliveries to probes: their names and the keys of the events, the last one first. -/
  seen : List (String × String)
  /-- Receivers that were registered by name. -/
  slots : Table (MailboxId × Nat)
  schedule : Schedule
  /-- Waits going on, the innermost first. -/
  waits : List Wait

/-- What a session is made with. Without settings its parts are made one by one; with settings side
`x` is put together as a process would be. -/
structure Setup where
  /-- Retention of both mailboxes; the default one without a lifetime. -/
  ttlMs : Option Nat
  capacity : Nat
  intervalMs : Nat
  engineHasMailbox : Bool
  verifierHasMailbox : Bool
  /-- Side `x` is assembled from these. -/
  settings : Option Settings

namespace Setup

/-- The retention of both mailboxes, the default one if no lifetime is given. Of several completions
held longest, the first one by key gives way. -/
def retention (s : Setup) : Retention :=
  match s.ttlMs with
  | some ttl => ⟨ttl, s.capacity, fun _ => 0⟩
  | none => ⟨Settings.default.holdSecs * 1000, Settings.default.holdCapacity, fun _ => 0⟩

end Setup

namespace Session

/-- The session at its start: nothing is stored and nobody waits. If side `x` is assembled, what
that reports is the first to stand in the log. -/
def ofSetup (s : Setup) : Session :=
  let assembly := s.settings.map (Assembly.ofSettings · Side.x.mailbox)
  let retentionX := (assembly.map (·.retention)).getD s.retention
  let engineX : Engine := match assembly with
    | some a => a.engine
    | none => ⟨if s.engineHasMailbox then some Side.x.mailbox else none⟩
  let pollerX : Poller := match assembly.bind (·.pollers.head?) with
    | some p => p
    | none => ⟨Side.x.name, engineX, s.intervalMs⟩
  { state := .initial fun i => if i = Side.x.mailbox then retentionX else s.retention
    eventFaults := .empty
    scenarioFaults := .empty
    log := match s.settings, assembly with
      | some settings, some a => (Assembly.entries settings a).reverse
      | _, _ => []
    calls := []
    engineX
    pollerX
    intervalMs := s.intervalMs
    verifier := match assembly with
      | some a => a.verifier
      | none => ⟨if s.verifierHasMailbox then some Side.x.mailbox else none⟩
    assembly
    bus := .empty
    channel := match assembly with
      | none => .shared
      | some a => match a.transport with
        | .bus => .own (Bus.empty.subscribe (.engine engineX)).2
        | .direct => .direct engineX
    subscriptions := (assembly.bind (·.subscription)).toList
    seen := []
    slots := .empty
    schedule := .empty
    waits := [] }

/-- The engine of a side. That of side `x` is what the session was set up with; that of side `y`
always has a mailbox. -/
def engine (s : Session) : Side → Engine
  | .x => s.engineX
  | .y => ⟨some Side.y.mailbox⟩

/-- The poller of a side, which hands events to the engine of that side. -/
def poller (s : Session) : Side → Poller
  | .x => s.pollerX
  | .y => ⟨Side.y.name, s.engine .y, s.intervalMs⟩

/-- The subscription listed at `index`, if both are there. -/
def subscription? (s : Session) (index : Option Nat) : Option Subscription :=
  index.bind (s.subscriptions[·]?)

/-- The time that pollers and waits go by, in milliseconds. It moves only where a step advances
it. -/
def timer (s : Session) : Nat := s.schedule.timer

/-! ## Answering requests -/

/-- The text that a call is listed with: its method and those of its arguments that are not
empty. -/
def callText (method : String) (arguments : List String) : String :=
  " ".intercalate (method :: arguments.filter (· ≠ ""))

def note (s : Session) (e : LogEntry) : Session := { s with log := e :: s.log }

/-- Answers a request from the state. Nothing fails and nothing comes in between. -/
def withRequest (s : Session) (r : Request) : r.Answer × Session :=
  let (x, state) := State.answer r s.state
  (x, { s with state })

/-- What another writer does to the record of a call to make it ready, while the faults say that
there is one: it makes the record ready first, so that the call comes too late. -/
def outrun (s : Session) : EventCall → Session
  | .markReady key =>
    if s.eventFaults.contains FaultRules.race then
      { s with state.events := (s.state.events.markReady key).2 }
    else s
  | _ => s

/-- How a session answers requests: as its state does, except that calls on the stores are listed
and may fail by their rules, and that entries are kept for the step. -/
def answer : Proc.Handler Session
  | .events c, s =>
    let s := { s with calls := callText c.method c.arguments :: s.calls }
    let (fault, rules) := s.eventFaults.check c.method c.arguments
    let s := { s with eventFaults := rules }
    match fault with
    | some f => (.error f, s)
    | none => (s.outrun c).withRequest (.events c)
  | .scenarios c, s =>
    let s := { s with calls := callText c.method c.arguments :: s.calls }
    let (fault, rules) := s.scenarioFaults.check c.method c.arguments
    let s := { s with scenarioFaults := rules }
    match fault with
    | some f => (.error f, s)
    | none => s.withRequest (.scenarios c)
  | .note e, s => ((), s.note e)
  | r, s => s.withRequest r

end Session

/-- What changes a session and gives an answer. Commands are carried out by scripts, one after the
other. -/
abbrev Script := StateM Session

namespace Script

def run {α : Type} (p : Proc α) : Script α := p.run Session.answer

def note (e : LogEntry) : Script Unit := modify (·.note e)

end Script

end Rendezvous
