import Rendezvous.Proofs.Faults

/-!
# Threads that share a state

A pool of threads works on one state. A schedule says which thread goes on with its next request
and which fault befalls that request, and when time passes. Every order in which the requests of
the threads can mingle is a run under some schedule, so a statement about all schedules is one about
all interleavings, at the granularity of single requests.

`Pool.stays` is how such statements are proved: an assertion on each thread that its own steps keep
up and that the steps of others do not disturb.
-/

namespace Rendezvous

/-- One decision of a scheduler: which thread goes on and what befalls its request, or that time
passes. -/
inductive Choice
  | step (thread : Nat) (fault : Option Fault)
  | wait (ms : Nat)
deriving DecidableEq

/-- Threads over one state. A schedule decides which of them goes on, so it stands for every way in
which they may come in between each other. -/
structure Pool (τ : Type) where
  state : State
  threads : List τ

namespace Pool

variable {τ : Type}

/-- How a thread goes on by one step, when a fault may befall its next request. -/
abbrev Stepper (τ : Type) := Option Fault → τ → State → τ × State

variable (step : Stepper τ)

def go (w : Pool τ) : Choice → Pool τ
  | .step i fault => match w.threads[i]? with
    | some t => ⟨(step fault t w.state).2, w.threads.set i (step fault t w.state).1⟩
    | none => w
  | .wait ms => { w with state := w.state.wait ms }

def run (w : Pool τ) (schedule : List Choice) : Pool τ := schedule.foldl (go step) w

theorem run_append (w : Pool τ) (cs ds : List Choice) :
    w.run step (cs ++ ds) = (w.run step cs).run step ds := List.foldl_append ..

variable {step}

/-- What each decision keeps, a whole run keeps. -/
theorem run_keeps {P : Pool τ → Prop} (keep : ∀ w c, P w → P (w.go step c)) {w : Pool τ} (h : P w)
    (schedule : List Choice) : P (w.run step schedule) := by
  induction schedule generalizing w with
  | nil => exact h
  | cons c cs ih => exact ih (keep w c h)

theorem length_go (w : Pool τ) (c : Choice) :
    (w.go step c).threads.length = w.threads.length := by
  cases c with
  | wait ms => rfl
  | step i fault =>
      rw [go]
      cases w.threads[i]? with
      | none => rfl
      | some t => exact List.length_set

/-- After a step a thread is the one that went on, or it is as it was. -/
theorem getElem?_set_cases {threads : List τ} {i j : Nat} {t u : τ}
    (h : (threads.set i t)[j]? = some u) : j = i ∧ u = t ∨ j ≠ i ∧ threads[j]? = some u := by
  by_cases hij : j = i
  · subst hij
    obtain ⟨hlt, -⟩ := List.getElem?_eq_some_iff.mp h
    rw [List.getElem?_set_self (by simpa using hlt)] at h
    exact .inl ⟨rfl, (Option.some.inj h).symm⟩
  · rw [List.getElem?_set_ne (Ne.symm hij)] at h
    exact .inr ⟨hij, h⟩

/-- Each thread of the pool is as its assertion says, at the state of the pool. Assertions differ
from thread to thread. -/
def Meets (L : Nat → τ → State → Prop) (w : Pool τ) : Prop :=
  ∀ i t, w.threads[i]? = some t → L i t w.state

section

variable {L : Nat → τ → State → Prop} {R : State → State → Prop}

/-- The assertions `L` on the threads stay up and the state moves as `R` allows, if a thread that
goes on keeps up its own assertion within `R` and those of others survive `R`. -/
theorem go_stays (refl : ∀ s, R s s) (wait : ∀ s ms, R s (s.wait ms))
    (own : ∀ i fault t s, L i t s →
      R s (step fault t s).2 ∧ L i (step fault t s).1 (step fault t s).2)
    (others : ∀ i t s s', R s s' → L i t s → L i t s') {w : Pool τ} (h : w.Meets L) (c : Choice) :
    R w.state (w.go step c).state ∧ (w.go step c).Meets L := by
  cases c with
  | wait ms => exact ⟨wait _ ms, fun j u hu => others j u _ _ (wait _ ms) (h j u hu)⟩
  | step i fault =>
      rw [go]
      cases hi : w.threads[i]? with
      | none => exact ⟨refl _, h⟩
      | some t =>
          obtain ⟨hs, ho⟩ := own i fault t w.state (h i t hi)
          refine ⟨hs, fun j u hu => ?_⟩
          rcases getElem?_set_cases hu with ⟨rfl, rfl⟩ | ⟨-, hj⟩
          · exact ho
          · exact others j u _ _ hs (h j u hj)

theorem stays (refl : ∀ s, R s s) (trans : ∀ {s t u}, R s t → R t u → R s u)
    (wait : ∀ s ms, R s (s.wait ms))
    (own : ∀ i fault t s, L i t s →
      R s (step fault t s).2 ∧ L i (step fault t s).1 (step fault t s).2)
    (others : ∀ i t s s', R s s' → L i t s → L i t s') {w : Pool τ} (h : w.Meets L)
    (schedule : List Choice) :
    R w.state (w.run step schedule).state ∧ (w.run step schedule).Meets L := by
  refine run_keeps (P := fun v => R w.state v.state ∧ v.Meets L) ?_ ⟨refl _, h⟩ schedule
  rintro v c ⟨hR, hL⟩
  obtain ⟨hs, hL⟩ := go_stays refl wait own others hL c
  exact ⟨trans hR hs, hL⟩

end

theorem length_run (w : Pool τ) (schedule : List Choice) :
    (w.run step schedule).threads.length = w.threads.length :=
  run_keeps (P := fun v => v.threads.length = w.threads.length)
    (fun v c h => (length_go v c).trans h) rfl schedule

end Pool

/-! ## Pools of procedures -/

namespace Proc

variable {α : Type} {x : Exposure} {I : Interference (Option Fault) State}

/-- A procedure makes one request at a time, so that others come in between any two; one that is
done stays as it is. -/
def advance (x : Exposure) : Pool.Stepper (Proc α)
  | _, .done a, s => (.done a, s)
  | fault, .ask r next, s => (next (State.reply x fault r s).1, (State.reply x fault r s).2)

def isDone : Proc α → Bool
  | .done _ => true
  | .ask _ _ => false

theorem Under.advance {post : α → State → Prop} (reply : I.reply = State.reply x)
    (rely : ∀ s t, I.guar s t → I.rely s t) (fault : Option Fault) :
    ∀ {p : Proc α} {s : State}, Under I post p s →
      I.rely s (Proc.advance x fault p s).2
        ∧ Under I post (Proc.advance x fault p s).1 (Proc.advance x fault p s).2
  | .done _, s, h => ⟨I.refl s, h⟩
  | .ask _ _, s, h => by
      obtain ⟨hg, hn⟩ := reply ▸ h.ask fault
      exact ⟨rely _ _ hg, hn⟩

/-- Threads that keep to what the others rely on all end as they should, under every schedule. A
step of one keeps its own assertion by what it does, and those of the others by what they rely
on. -/
theorem stays_under {post : Nat → α → State → Prop} (reply : I.reply = State.reply x)
    (rely : ∀ s t, I.guar s t → I.rely s t) (wait : ∀ s ms, I.rely s (s.wait ms))
    {w : Pool (Proc α)} (h : w.Meets fun i => Under I (post i)) (schedule : List Choice) :
    I.rely w.state (w.run (Proc.advance x) schedule).state
      ∧ (w.run (Proc.advance x) schedule).Meets fun i => Under I (post i) :=
  Pool.stays I.refl I.trans wait (fun _ fault _ _ h => h.advance reply rely fault)
    (fun _ _ _ _ hst h => h.rely hst) h schedule

end Proc

end Rendezvous
