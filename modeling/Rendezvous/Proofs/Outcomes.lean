import Rendezvous.Proofs.Faults

/-!
# Which calls were answered

`Proc.runFaulty` runs a procedure alone under a pattern of faults. What that pattern comes to is
said by `Proc.outcomes`: for each call on a store that the procedure makes, in turn, whether it was
answered. `Proc.Tells` is a triple that speaks of these outcomes besides the result and the state,
so that a specification can tie what a procedure leaves behind to the calls that failed.
-/

namespace Rendezvous

/-- Whether a call on a store was answered. Other requests always are, and do not count as calls. -/
def Request.outcome? : (r : Request) → r.Answer → Option Bool
  | .events _, answer => some answer.isOk
  | .scenarios _, answer => some answer.isOk
  | _, _ => none

namespace Proc

variable {α β : Type} {x : Exposure} {post : List Bool → α → State → Prop}

/-- Whether each call on a store was answered, in the order of the calls, when the procedure runs
alone. -/
def outcomes (x : Exposure) : (Nat → Option Fault) → Proc α → State → List Bool
  | _, .done _, _ => []
  | faults, .ask r next, s =>
    let reply := State.reply x (faults 0) r s
    (r.outcome? reply.1).toList ++ outcomes x (fun n => faults (n + 1)) (next reply.1) reply.2

/-- Run alone from `s`, the procedure ends as `post` says of the outcomes of its calls, its result
and the state it leaves, whatever fails. -/
def Tells (x : Exposure) (post : List Bool → α → State → Prop) : Proc α → State → Prop
  | .done a, s => post [] a s
  | .ask r next, s => ∀ fault,
    let reply := State.reply x fault r s
    Tells x (fun l => post ((r.outcome? reply.1).toList ++ l)) (next reply.1) reply.2

theorem Tells.runFaulty : ∀ {p : Proc α} {s : State} {post : List Bool → α → State → Prop},
    Tells x post p s → ∀ faults : Nat → Option Fault,
      post (outcomes x faults p s) (runFaulty x faults p s).1 (runFaulty x faults p s).2
  | .done _, _, _, h, _ => h
  | .ask _ _, _, _, h, faults => (h (faults 0)).runFaulty fun n => faults (n + 1)

theorem Tells.mono : ∀ {p : Proc α} {s : State} {post post' : List Bool → α → State → Prop},
    (∀ l a t, post l a t → post' l a t) → Tells x post p s → Tells x post' p s
  | .done _, s, _, _, hp, h => hp [] _ s h
  | .ask _ _, _, _, _, hp, h => fun fault => (h fault).mono fun l a t => hp (_ ++ l) a t

theorem tells_bind {f : α → Proc β} : ∀ {p : Proc α} {s : State}
    {post : List Bool → β → State → Prop},
    Tells x (fun l a t => Tells x (fun m => post (l ++ m)) (f a) t) p s → Tells x post (p >>= f) s
  | .done _, _, _, h => h
  | .ask _ _, _, _, h => fun fault => tells_bind ((h fault).mono fun l a t hn =>
      hn.mono fun m b u hb => by rwa [List.append_assoc] at hb)

/-- What holds whatever the outcomes are. -/
theorem Tells.leads : ∀ {p : Proc α} {s : State} {post : List Bool → α → State → Prop},
    Tells x post p s → Leads (State.reply x) (fun a t => ∃ l, post l a t) p s
  | .done _, _, _, h => leads_done.mpr ⟨[], h⟩
  | .ask _ _, _, _, h => leads_ask.mpr fun fault =>
      (h fault).leads.mono fun _ _ ⟨l, hl⟩ => ⟨_ ++ l, hl⟩

/-! ## Single requests -/

variable {s : State}

@[simp] theorem tells_done {a : α} : Tells x post (.done a) s ↔ post [] a s := Iff.rfl

@[simp] theorem tells_note_done {post : List Bool → Unit → State → Prop} {entry : LogEntry} :
    Tells x post (note entry) s ↔ post [] () s := ⟨fun h => h none, fun h _ => h⟩

theorem tells_events {c : EventCall} {f : Except Fault c.Answer → Proc α}
    (hok : Tells x (fun l => post (true :: l)) (f (.ok (State.answerEvents c s).1))
      (State.answerEvents c s).2)
    (hfail : x.events = true → ∀ e, Tells x (fun l => post (false :: l)) (f (.error e)) s) :
    Tells x post (events c >>= f) s := by
  intro fault
  dsimp only
  rcases State.reply_events x fault c s with he | ⟨hx, e, he⟩
  · rw [he]
    exact hok
  · rw [he]
    exact hfail hx e

theorem tells_scenarios {c : ScenarioCall} {f : Except Fault c.Answer → Proc α}
    (hok : Tells x (fun l => post (true :: l)) (f (.ok (State.answerScenarios c s).1))
      (State.answerScenarios c s).2)
    (hfail : x.scenarios = true → ∀ e, Tells x (fun l => post (false :: l)) (f (.error e)) s) :
    Tells x post (scenarios c >>= f) s := by
  intro fault
  dsimp only
  rcases State.reply_scenarios x fault c s with he | ⟨hx, e, he⟩
  · rw [he]
    exact hok
  · rw [he]
    exact hfail hx e

theorem tells_note {entry : LogEntry} {f : Unit → Proc α} (h : Tells x post (f ()) s) :
    Tells x post (note entry >>= f) s := fun _ => h

theorem tells_now {f : Instant → Proc α} (h : Tells x post (f s.now) s) :
    Tells x post (now >>= f) s := fun _ => h

theorem tells_register (mailbox : MailboxId) (key : String) :
    Tells x (fun l _ t => l = [] ∧ t = (s.register mailbox key).2) (register mailbox key) s := by
  intro _
  change Tells _ _ (if (s.register mailbox key).1.2 then _ else _) (s.register mailbox key).2
  split
  · exact tells_note ⟨rfl, rfl⟩
  · exact ⟨rfl, rfl⟩

end Proc

end Rendezvous
