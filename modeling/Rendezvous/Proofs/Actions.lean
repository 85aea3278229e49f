import Rendezvous.Proofs.Faults

/-!
# What a run does

The doings of a procedure that others can see: the calls it makes on the record store, each with
whether it was answered, and the mailboxes it completes (`Proc.actions`). `Proc.Acts` is a triple
that ties the result of a procedure and the state it leaves to what it has done.
-/

namespace Rendezvous

/-- What a procedure does that others can notice: a call on the record store, with whether it was
answered, or a completion of a mailbox. -/
inductive Action
  | called (c : EventCall) (answered : Bool)
  | completed (mailbox : MailboxId) (key : String) (result : Record)

def Action.completion? : Action → Option (MailboxId × String × Record)
  | .called _ _ => none
  | .completed mailbox key result => some (mailbox, key, result)

def Request.action? : (r : Request) → r.Answer → Option Action
  | .events c, answer => some (.called c answer.isOk)
  | .complete mailbox key result, _ => some (.completed mailbox key result)
  | _, _ => none

namespace Proc

variable {α β : Type} {x : Exposure} {s : State}

/-- What the procedure does to stores and mailboxes, in turn, when it runs alone and `faults n`
befalls its `n`th request. -/
def actions (x : Exposure) : (Nat → Option Fault) → Proc α → State → List Action
  | _, .done _, _ => []
  | faults, .ask r next, s =>
    let reply := State.reply x (faults 0) r s
    (r.action? reply.1).toList ++ actions x (fun n => faults (n + 1)) (next reply.1) reply.2

/-- Run alone from `s`, the procedure ends as `post` says of what it has done, its result and the
state it leaves, whatever fails. -/
def Acts (x : Exposure) (post : List Action → α → State → Prop) : Proc α → State → Prop
  | .done a, s => post [] a s
  | .ask r next, s => ∀ fault,
    let reply := State.reply x fault r s
    Acts x (fun l => post ((r.action? reply.1).toList ++ l)) (next reply.1) reply.2

theorem Acts.runFaulty : ∀ {p : Proc α} {s : State} {post : List Action → α → State → Prop},
    Acts x post p s → ∀ faults : Nat → Option Fault,
      post (actions x faults p s) (runFaulty x faults p s).1 (runFaulty x faults p s).2
  | .done _, _, _, h, _ => h
  | .ask _ _, _, _, h, faults => (h (faults 0)).runFaulty fun n => faults (n + 1)

theorem Acts.mono : ∀ {p : Proc α} {s : State} {post post' : List Action → α → State → Prop},
    (∀ l a t, post l a t → post' l a t) → Acts x post p s → Acts x post' p s
  | .done _, s, _, _, hp, h => hp [] _ s h
  | .ask _ _, _, _, _, hp, h => fun fault => (h fault).mono fun l a t => hp (_ ++ l) a t

/-- What holds whatever has been done. -/
theorem Acts.leads : ∀ {p : Proc α} {s : State} {post : List Action → α → State → Prop},
    Acts x post p s → Leads (State.reply x) (fun a t => ∃ l, post l a t) p s
  | .done _, _, _, h => leads_done.mpr ⟨[], h⟩
  | .ask _ _, _, _, h => leads_ask.mpr fun fault =>
      (h fault).leads.mono fun _ _ ⟨l, hl⟩ => ⟨_ ++ l, hl⟩

theorem acts_bind {f : α → Proc β} : ∀ {p : Proc α} {s : State}
    {post : List Action → β → State → Prop},
    Acts x (fun l a t => Acts x (fun m => post (l ++ m)) (f a) t) p s → Acts x post (p >>= f) s
  | .done _, _, _, h => h
  | .ask _ _, _, _, h => fun fault => acts_bind ((h fault).mono fun l a t hn =>
      hn.mono fun m b u hb => by rwa [List.append_assoc] at hb)

variable {post : List Action → α → State → Prop}

@[simp] theorem acts_done {a : α} : Acts x post (.done a) s ↔ post [] a s := Iff.rfl

theorem acts_note {entry : LogEntry} {f : Unit → Proc α} (h : Acts x post (f ()) s) :
    Acts x post (note entry >>= f) s := fun _ => h

/-- The rule for a call on the record store that something follows. -/
theorem acts_events {c : EventCall} {f : Except Fault c.Answer → Proc α}
    (hok : Acts x (fun l => post (.called c true :: l)) (f (.ok (State.answerEvents c s).1))
      (State.answerEvents c s).2)
    (hfail : x.events = true →
      ∀ fault, Acts x (fun l => post (.called c false :: l)) (f (.error fault)) s) :
    Acts x post (events c >>= f) s := by
  intro fault
  dsimp only
  rcases State.reply_events x fault c s with he | ⟨hx, cause, he⟩
  · rw [he]
    exact hok
  · rw [he]
    exact hfail hx cause

theorem acts_complete {mailbox : MailboxId} {key : String} {result : Record} {f : Nat → Proc α}
    (h : Acts x (fun l => post (.completed mailbox key result :: l))
      (f (s.complete mailbox key result).1.delivered) (s.complete mailbox key result).2) :
    Acts x post (complete mailbox key result >>= f) s := by
  obtain ⟨entries, he⟩ := complete_eq mailbox key result
  rw [he, bind_assoc]
  intro _
  change Acts x _ (noting (entries (s.complete mailbox key result).1) _ >>= f) _
  induction entries (s.complete mailbox key result).1 with
  | nil => exact h
  | cons entry _ ih => exact acts_note ih

end Proc

end Rendezvous
