import Rendezvous.Mailbox
import Rendezvous.Log
import Rendezvous.Record
import Rendezvous.Scenario

/-!
# Procedures

The components work in single steps: a procedure asks for one thing at a time and goes on with
the answer. What lies between two requests is pure, so the requests are the only places where
another procedure can come in between, and who answers them decides what fails.

Calls on a store may fail. Requests to a mailbox, the clock and the log cannot.
-/

namespace Rendezvous

/-- Why a call on a store failed. What the store may have done all the same is not known to the
caller; here a call that fails has done nothing. -/
structure Fault where
  message : String
deriving DecidableEq

/-! ## Requests -/

/-- The calls on the store of event records, one for each method of `EventStore`. Each of them
writes one record at the most. -/
inductive EventCall
  | save (e : Record)
  | latest (order eventType : String)
  | find (key : String)
  | markPaused (context : Record)
  | markReady (key : String)
  | isReady (key : String)
  | byOrder (order : String)
  | paused

abbrev EventCall.Answer : EventCall → Type
  | .save _ => Unit
  | .latest _ _ => Option Record
  | .find _ => Option Record
  | .markPaused _ => Unit
  | .markReady _ => Bool
  | .isReady _ => Bool
  | .byOrder _ => List Record
  | .paused => List Record

/-- The calls on the store of scenario states, one for each method of `ScenarioStateStore`. A state
is saved as a whole. -/
inductive ScenarioCall
  | find (key : String)
  | save (s : ScenarioState)
  | delete (key : String)
  | clear

abbrev ScenarioCall.Answer : ScenarioCall → Type
  | .find _ => Option ScenarioState
  | .save _ => Unit
  | .delete _ => Unit
  | .clear => Unit

/-- Which mailbox. Each engine may have one of its own, as engines in different processes do. -/
abbrev MailboxId := Nat

/-- All that a procedure can ask for. A call on a store is one request, so two procedures on one
store take turns call by call; the same holds of a mailbox, which is locked for the length of one
operation. -/
inductive Request
  | events (c : EventCall)
  | scenarios (c : ScenarioCall)
  | register (mailbox : MailboxId) (key : String)
  | complete (mailbox : MailboxId) (key : String) (result : Record)
  | waiting (mailbox : MailboxId) (key : String)
  | now
  | note (e : LogEntry)

/-- What a request is answered with. A call on a store may be answered with a fault. -/
abbrev Request.Answer : Request → Type
  | .events c => Except Fault c.Answer
  | .scenarios c => Except Fault c.Answer
  | .register _ _ => Nat × Bool
  | .complete _ _ _ => Completion
  | .waiting _ _ => Nat
  | .now => Instant
  | .note _ => Unit

/-! ## Procedures -/

/-- A procedure: it is over with a result, or it asks for one thing and goes on with the answer. It
has no state of its own, so all that it knows it was told. -/
inductive Proc (α : Type) : Type
  | done (a : α)
  | ask (r : Request) (next : r.Answer → Proc α)

namespace Proc

variable {α β σ : Type}

/-- Goes on with `f` when the first procedure is over. No request is lost, repeated or moved by
it. -/
def bind : Proc α → (α → Proc β) → Proc β
  | .done a, f => f a
  | .ask r next, f => .ask r fun x => bind (next x) f

instance : Monad Proc where
  pure := .done
  bind := bind

@[simp] theorem done_bind (a : α) (f : α → Proc β) : (Proc.done a >>= f) = f a := rfl

@[simp] theorem ask_bind (r : Request) (next : r.Answer → Proc α) (f : α → Proc β) :
    (Proc.ask r next >>= f) = .ask r fun x => next x >>= f := rfl

@[simp] theorem pure_eq (a : α) : (pure a : Proc α) = .done a := rfl

theorem bind_done : ∀ p : Proc α, (p >>= .done) = p
  | .done _ => rfl
  | .ask r next => by
    rw [ask_bind]
    exact congrArg _ (funext fun x => bind_done (next x))

theorem bind_assoc {γ : Type} (f : α → Proc β) (g : β → Proc γ) :
    ∀ p : Proc α, (p >>= f >>= g) = (p >>= fun a => f a >>= g)
  | .done _ => rfl
  | .ask r next => by
    simp only [ask_bind]
    exact congrArg _ (funext fun x => bind_assoc f g (next x))

/-- How requests are answered from a state, and what they make of it. Different handlers stand for
different worlds: one in which nothing fails, one with faults, one that keeps a list of calls. -/
abbrev Handler (σ : Type) := (r : Request) → σ → r.Answer × σ

/-- Runs a procedure on its own. Every request is answered at once, with nothing in between, which
is how a session and the simplest proofs see it. -/
def run (h : Handler σ) : Proc α → σ → α × σ
  | .done a, s => (a, s)
  | .ask r next, s => run h (next (h r s).1) (h r s).2

@[simp] theorem run_done (h : Handler σ) (a : α) (s : σ) : run h (.done a) s = (a, s) := rfl

@[simp] theorem run_ask (h : Handler σ) (r : Request) (next : r.Answer → Proc α) (s : σ) :
    run h (.ask r next) s = run h (next (h r s).1) (h r s).2 := rfl

theorem run_bind (h : Handler σ) (f : α → Proc β) :
    ∀ (p : Proc α) (s : σ), run h (p >>= f) s = run h (f (run h p s).1) (run h p s).2
  | .done _, _ => rfl
  | .ask r next, s => by rw [ask_bind, run_ask, run_bind h f (next _), run_ask]

/-! ## Single requests -/

def request (r : Request) : Proc r.Answer := .ask r .done

def events (c : EventCall) : Proc (Except Fault c.Answer) := request (.events c)

def scenarios (c : ScenarioCall) : Proc (Except Fault c.Answer) := request (.scenarios c)

def now : Proc Instant := request .now

def note (e : LogEntry) : Proc Unit := request (.note e)

def waiting (mailbox : MailboxId) (key : String) : Proc Nat := request (.waiting mailbox key)

/-! ## Mailbox requests with what they report -/

def mailboxEntry (message name key : String) (value : String → LogValue) : LogEntry :=
  ⟨.debug, "resume_engine::awaiter", message, [(name, value key)]⟩

/-- Registers a receiver for `key` and reports if a completion was held for it; the number of the
receiver. -/
def register (mailbox : MailboxId) (key : String) : Proc Nat := do
  let (id, found) ← request (.register mailbox key)
  if found then note (mailboxEntry "Register found an earlier completion" "key" key .plain)
  return id

/-- Completes `key` and reports what was held and what had to give way for it; how many receivers
got the result. -/
def complete (mailbox : MailboxId) (key : String) (result : Record) : Proc Nat := do
  let c ← request (.complete mailbox key result)
  if let some evicted := c.evicted then
    note (mailboxEntry "Unclaimed completion buffer full" "evicted" evicted .shown)
  if c.delivered = 0 then
    note (mailboxEntry "Completion held until a waiter registers" "key" key .plain)
  return c.delivered

end Proc

end Rendezvous
