import Rendezvous.Proofs.Faults

/-!
# The calls a procedure makes

`Proc.calls` is the log of a run: the calls on the stores, in turn, each with whether it was
answered. The log of one procedure after another is the one log after the other, where the second
procedure meets the faults that the first has left (`Proc.remaining`). `Proc.Recounts` is a triple
that ties what a procedure leaves behind to its log.
-/

namespace Rendezvous

/-- A call on a store as it was made, and whether it was answered. -/
structure Placed where
  call : Request
  answered : Bool

def Request.placed? : (r : Request) → r.Answer → Option Placed
  | .events c, answer => some ⟨.events c, answer.isOk⟩
  | .scenarios c, answer => some ⟨.scenarios c, answer.isOk⟩
  | _, _ => none

/-- All calls were answered, but perhaps for saves of records, which the engine does not depend
on. -/
def Placed.SavesAside (l : List Placed) : Prop :=
  ∀ c ∈ l, c.answered = true ∨ ∃ e, c.call = .events (.save e)

namespace Proc

variable {α β : Type} {x : Exposure} {s : State}

def calls (x : Exposure) : (Nat → Option Fault) → Proc α → State → List Placed
  | _, .done _, _ => []
  | faults, .ask r next, s =>
    let reply := State.reply x (faults 0) r s
    (r.placed? reply.1).toList ++ calls x (fun n => faults (n + 1)) (next reply.1) reply.2

/-- The faults that befall what follows the procedure, when it runs alone. How many of `faults` it
uses up depends on the requests it makes. -/
def remaining (x : Exposure) : (Nat → Option Fault) → Proc α → State → Nat → Option Fault
  | faults, .done _, _ => faults
  | faults, .ask r next, s =>
    let reply := State.reply x (faults 0) r s
    remaining x (fun n => faults (n + 1)) (next reply.1) reply.2

theorem runFaulty_bind (x : Exposure) (f : α → Proc β) : ∀ (faults : Nat → Option Fault)
    (p : Proc α) (s : State), runFaulty x faults (p >>= f) s
      = runFaulty x (remaining x faults p s) (f (runFaulty x faults p s).1)
          (runFaulty x faults p s).2
  | _, .done _, _ => rfl
  | faults, .ask r next, s =>
      runFaulty_bind x f (fun n => faults (n + 1)) (next (State.reply x (faults 0) r s).1)
        (State.reply x (faults 0) r s).2

theorem calls_bind (x : Exposure) (f : α → Proc β) : ∀ (faults : Nat → Option Fault)
    (p : Proc α) (s : State), calls x faults (p >>= f) s = calls x faults p s
      ++ calls x (remaining x faults p s) (f (runFaulty x faults p s).1) (runFaulty x faults p s).2
  | _, .done _, _ => rfl
  | faults, .ask r next, s => by
      have hnext := calls_bind x f (fun n => faults (n + 1))
        (next (State.reply x (faults 0) r s).1) (State.reply x (faults 0) r s).2
      rw [ask_bind, calls, hnext, calls, List.append_assoc]
      rfl

/-- A run in which every call is answered is one without faults. -/
theorem runFaulty_of_answered (x : Exposure) : ∀ (faults : Nat → Option Fault) (p : Proc α)
    (s : State), (∀ c ∈ calls x faults p s, c.answered = true) →
      runFaulty x faults p s = run State.answer p s
  | _, .done _, _, _ => rfl
  | faults, .ask r next, s, h => by
      have hreply : State.reply x (faults 0) r s = State.answer r s := by
        have hfirst : ∀ c ∈ (r.placed? (State.reply x (faults 0) r s).1).toList,
            c.answered = true := fun c hc => h c (List.mem_append_left _ hc)
        cases r with
        | events c =>
            rcases State.reply_events x (faults 0) c s with he | ⟨-, f, he⟩
            · exact he
            · rw [he] at hfirst
              exact absurd (hfirst _ List.mem_cons_self) Bool.false_ne_true
        | scenarios c =>
            rcases State.reply_scenarios x (faults 0) c s with he | ⟨-, f, he⟩
            · exact he
            · rw [he] at hfirst
              exact absurd (hfirst _ List.mem_cons_self) Bool.false_ne_true
        | _ => rfl
      have hrest := runFaulty_of_answered x (fun n => faults (n + 1))
        (next (State.reply x (faults 0) r s).1) (State.reply x (faults 0) r s).2
        fun c hc => h c (List.mem_append_right _ hc)
      rw [run_ask, ← hreply]
      exact hrest

/-- Where no call can fail, all are answered. -/
theorem answered_of_none : ∀ (faults : Nat → Option Fault) (p : Proc α) (s : State),
    ∀ c ∈ calls .none faults p s, c.answered = true
  | _, .done _, _, c, hc => by cases hc
  | faults, .ask r next, s, c, hc => by
      rw [calls] at hc
      rcases List.mem_append.mp hc with hc | hc
      · cases r with
        | events e =>
            rcases State.reply_events .none (faults 0) e s with he | ⟨hx, -⟩
            · rw [he] at hc
              obtain rfl := List.mem_singleton.mp hc
              rfl
            · cases hx
        | scenarios e =>
            rcases State.reply_scenarios .none (faults 0) e s with he | ⟨hx, -⟩
            · rw [he] at hc
              obtain rfl := List.mem_singleton.mp hc
              rfl
            · cases hx
        | _ => cases hc
      · exact answered_of_none _ _ _ c hc

/-! ## Specifications that speak of the log -/

/-- Run alone from `s`, the procedure ends as `post` says of its log, its result and the state it
leaves, whatever fails. -/
def Recounts (x : Exposure) (post : List Placed → α → State → Prop) (p : Proc α) (s : State) :
    Prop :=
  ∀ faults, post (calls x faults p s) (runFaulty x faults p s).1 (runFaulty x faults p s).2

variable {post : List Placed → α → State → Prop}

theorem recounts_done {a : α} (h : post [] a s) : Recounts x post (.done a) s := fun _ => h

theorem Recounts.mono {post' : List Placed → α → State → Prop}
    (hp : ∀ l a t, post l a t → post' l a t) {p : Proc α} (h : Recounts x post p s) :
    Recounts x post' p s := fun faults => hp _ _ _ (h faults)

theorem recounts_bind {post : List Placed → β → State → Prop} {p : Proc α} {f : α → Proc β}
    (h : Recounts x (fun l a t => Recounts x (fun m => post (l ++ m)) (f a) t) p s) :
    Recounts x post (p >>= f) s := by
  intro faults
  rw [calls_bind, runFaulty_bind]
  exact h faults _

theorem recounts_note {entry : LogEntry} {f : Unit → Proc α} (h : Recounts x post (f ()) s) :
    Recounts x post (note entry >>= f) s := fun faults => h fun n => faults (n + 1)

/-- What is true of the result whatever the log, is true with the log. So what is known of a
procedure need not be proved again. -/
theorem Leads.recounts {post : α → State → Prop} {p : Proc α}
    (h : Leads (State.reply x) post p s) : Recounts x (fun _ => post) p s :=
  fun faults => h.runFaulty faults

end Proc

end Rendezvous
