import Rendezvous.Proofs.Interference
import Rendezvous.State

/-!
# Failing store calls

`State.answer` never fails. `State.reply` is its counterpart in which calls fail as a choice says:
an `Exposure` names the stores whose calls may fail at all, and a failing call leaves the state as
it was. `Proc.runFaulty` runs a procedure alone under a pattern of faults, one for each of its
requests in turn.
-/

namespace Rendezvous

/-- The stores whose calls may fail. A store that is not exposed answers every call, whatever the
faults are. -/
structure Exposure where
  events : Bool
  scenarios : Bool
deriving DecidableEq

namespace Exposure

def none : Exposure := ⟨false, false⟩

def all : Exposure := ⟨true, true⟩

end Exposure

namespace State

/-- The answer to a request, which fails with `fault` if there is one and the store is exposed. A
call that fails has done nothing. -/
def reply (x : Exposure) (fault : Option Fault) : Proc.Handler State
  | .events c, s => match fault.filter fun _ => x.events with
    | some f => (.error f, s)
    | none => answer (.events c) s
  | .scenarios c, s => match fault.filter fun _ => x.scenarios with
    | some f => (.error f, s)
    | none => answer (.scenarios c) s
  | r, s => answer r s

variable {x : Exposure} {fault : Option Fault} {s : State}

/-- A call on the record store is answered, or it fails and nothing has happened. -/
theorem reply_events (x : Exposure) (fault : Option Fault) (c : EventCall) (s : State) :
    reply x fault (.events c) s = (.ok (answerEvents c s).1, (answerEvents c s).2)
      ∨ x.events = true ∧ ∃ f, reply x fault (.events c) s = (.error f, s) := by
  simp only [reply]
  cases hf : fault.filter fun _ => x.events with
  | none => exact .inl rfl
  | some f => exact .inr ⟨(Option.filter_eq_some_iff.mp hf).2, f, rfl⟩

theorem reply_scenarios (x : Exposure) (fault : Option Fault) (c : ScenarioCall) (s : State) :
    reply x fault (.scenarios c) s = (.ok (answerScenarios c s).1, (answerScenarios c s).2)
      ∨ x.scenarios = true ∧ ∃ f, reply x fault (.scenarios c) s = (.error f, s) := by
  simp only [reply]
  cases hf : fault.filter fun _ => x.scenarios with
  | none => exact .inl rfl
  | some f => exact .inr ⟨(Option.filter_eq_some_iff.mp hf).2, f, rfl⟩

theorem reply_nofault (x : Exposure) : reply x none = answer := by
  funext r s
  cases r <;> rfl

end State

/-! ## What a request does to the record store -/

/-- The record store after a request: it is as it was, or the request is a write and was carried
out. -/
inductive State.Written (s : State) : Request → RecordStore → Prop
  | spared (r : Request) : Written s r s.events
  | saved (e : Record) : Written s (.events (.save e)) (s.events.save e)
  | paused (context : Record) :
      Written s (.events (.markPaused context)) (s.events.markPaused context s.now)
  | ready (key : String) : Written s (.events (.markReady key)) (s.events.markReady key).2

/-- A request that is no write on the record store, so that all records stay as they are. -/
def Request.SparesRecords : Request → Prop
  | .events (.save _) | .events (.markPaused _) | .events (.markReady _) => False
  | _ => True

/-- A request that only reads, logs or concerns scenarios, and so concerns neither records nor
receivers. -/
def Request.Idle : Request → Prop
  | .events (.save _) | .events (.markPaused _) | .events (.markReady _) => False
  | .register _ _ | .complete _ _ _ => False
  | _ => True

theorem Request.Idle.sparesRecords {r : Request} (h : r.Idle) : r.SparesRecords := by
  cases r with
  | events c =>
      cases c with
      | save | markPaused | markReady => exact h
      | _ => trivial
  | _ => trivial

theorem Proc.Asks.sparesRecords {α : Type} {p : Proc α} (h : p.Asks Request.Idle) :
    p.Asks Request.SparesRecords := h.mono fun _ => Request.Idle.sparesRecords

namespace State

theorem written_reply (x : Exposure) (fault : Option Fault) (r : Request) (s : State) :
    s.Written r (reply x fault r s).2.events := by
  cases r with
  | events c =>
      rcases reply_events x fault c s with he | ⟨-, f, he⟩
      · rw [he]
        cases c with
        | save e => exact .saved e
        | markPaused context => exact .paused context
        | markReady key => exact .ready key
        | _ => exact .spared _
      · rw [he]
        exact .spared _
  | scenarios c =>
      rcases reply_scenarios x fault c s with he | ⟨-, f, he⟩
      · rw [he]; cases c <;> exact .spared _
      · rw [he]; exact .spared _
  | _ => exact .spared _

end State

namespace Proc

variable {α : Type} {p : Proc α} {s : State}

/-- The procedure alone, with `faults n` befalling its `n`th request. A fault that befalls no store
call is without effect. -/
def runFaulty (x : Exposure) (faults : Nat → Option Fault) (p : Proc α) (s : State) : α × State :=
  runWith (State.reply x) faults p s

theorem runFaulty_nofault (x : Exposure) (p : Proc α) (s : State) :
    runFaulty x (fun _ => none) p s = run State.answer p s :=
  runWith_const none (State.reply_nofault x) p s

/-- The rule for a call on the record store that something follows. -/
theorem leads_events {x : Exposure} {post : α → State → Prop} {c : EventCall}
    {f : Except Fault c.Answer → Proc α}
    (hok : Leads (State.reply x) post (f (.ok (State.answerEvents c s).1))
      (State.answerEvents c s).2)
    (hfail : x.events = true → ∀ e, Leads (State.reply x) post (f (.error e)) s) :
    Leads (State.reply x) post (events c >>= f) s := by
  refine leads_request fun fault => ?_
  rcases State.reply_events x fault c s with he | ⟨hx, e, he⟩
  · rw [he]
    exact hok
  · rw [he]
    exact hfail hx e

/-! ## Requests that cannot fail -/

/-- The procedure that logs the entries and is done. It makes no difference to anything else. -/
def noting (entries : List LogEntry) (a : α) : Proc α :=
  entries.foldr (fun entry rest => note entry >>= fun _ => rest) (.done a)

theorem complete_eq (mailbox : MailboxId) (key : String) (result : Record) :
    ∃ entries : Completion → List LogEntry, complete mailbox key result
      = (request (.complete mailbox key result) >>= fun c => noting (entries c) c.delivered) := by
  refine ⟨fun c =>
    (c.evicted.map (mailboxEntry "Unclaimed completion buffer full" "evicted" · .shown)).toList
      ++ if c.delivered = 0 then
        [mailboxEntry "Completion held until a waiter registers" "key" key .plain] else [], ?_⟩
  refine congrArg (Proc.ask (.complete mailbox key result)) (funext fun ⟨delivered, evicted⟩ => ?_)
  cases evicted <;> cases delivered <;> rfl

theorem asks_complete {ok : Request → Prop} {mailbox : MailboxId} {key : String} {result : Record}
    (hc : ok (.complete mailbox key result)) (hn : ∀ entry, ok (.note entry)) :
    Asks ok (complete mailbox key result) := by
  obtain ⟨entries, he⟩ := complete_eq mailbox key result
  rw [he]
  refine asks_bind (fun c => ?_) (asks_request hc)
  induction entries c with
  | nil => exact asks_pure _
  | cons entry _ ih => exact asks_bind (fun _ => ih) (asks_request (hn entry))

section

variable {x : Exposure} {post : α → State → Prop}

theorem leads_note {entry : LogEntry} {f : Unit → Proc α}
    (h : Leads (State.reply x) post (f ()) s) :
    Leads (State.reply x) post (note entry >>= f) s := leads_request fun _ => h

/-- Completing a mailbox changes the mailbox, whatever there is to report about it. -/
theorem leads_complete {mailbox : MailboxId} {key : String}
    {result : Record} {f : Nat → Proc α} {s : State}
    (h : Leads (State.reply x) post (f (s.complete mailbox key result).1.delivered)
      (s.complete mailbox key result).2) :
    Leads (State.reply x) post (complete mailbox key result >>= f) s := by
  obtain ⟨entries, he⟩ := complete_eq mailbox key result
  rw [he]
  refine leads_bind (leads_request fun _ => ?_)
  change Leads (State.reply x) _ (noting (entries (s.complete mailbox key result).1) _) _
  induction entries (s.complete mailbox key result).1 with
  | nil => exact leads_done.mpr h
  | cons entry _ ih => exact leads_note ih

end

theorem Under.run {I : Interference (Option Fault) State} {x : Exposure}
    {post : α → State → Prop} (hI : I.reply = State.reply x) (h : Under I post p s) :
    post (run State.answer p s).1 (run State.answer p s).2 := by
  rw [← runFaulty_nofault x, runFaulty, ← hI]
  exact h.runWith _

theorem Leads.runFaulty {x : Exposure} {post : α → State → Prop}
    (h : Leads (State.reply x) post p s) (faults : Nat → Option Fault) :
    post (runFaulty x faults p s).1 (runFaulty x faults p s).2 := Under.runWith h faults

theorem Leads.run {post : α → State → Prop} (h : Leads (State.reply .none) post p s) :
    post (run State.answer p s).1 (run State.answer p s).2 := Under.run rfl h

end Proc

end Rendezvous
