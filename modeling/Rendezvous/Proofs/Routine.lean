import Rendezvous.Poller
import Rendezvous.Proofs.Pool
import Rendezvous.Verification

/-!
# Routines that hand events to engines

A procedure does not show where a call of `Engine.accept` begins and ends. A routine is a procedure
in which these calls are kept apart; put in place of the calls, what they do gives the procedure
back (`Routine.inline`). A thread carries out a routine and keeps marks of what happens inside the
calls: which keys it made ready, which mailboxes it completed, and which outcomes came back.
Threads get wherever the procedures get, under some schedule, and nowhere else
(`Pool.exists_run_iff`).
-/

namespace Rendezvous

/-- A procedure in which calls of `accept` stand apart from other requests, so that it can be seen
where one begins and ends. -/
inductive Routine (α : Type) : Type
  | done (a : α)
  | ask (r : Request) (next : r.Answer → Routine α)
  | accept (g : Engine) (e : Record) (next : Outcome → Routine α)

namespace Routine

variable {α β : Type}

def bind : Routine α → (α → Routine β) → Routine β
  | .done a, f => f a
  | .ask r next, f => .ask r fun x => bind (next x) f
  | .accept g e next, f => .accept g e fun o => bind (next o) f

instance : Monad Routine where
  pure := .done
  bind := bind

def ofProc : Proc α → Routine α
  | .done a => .done a
  | .ask r next => .ask r fun x => ofProc (next x)

/-- The routine with the calls carried out in their places, which gives the procedure back. -/
def inline : Routine α → Proc α
  | .done a => .done a
  | .ask r next => .ask r fun x => inline (next x)
  | .accept g e next => g.accept e >>= fun o => inline (next o)

theorem inline_ofProc : ∀ p : Proc α, (ofProc p).inline = p
  | .done _ => rfl
  | .ask r next => congrArg (Proc.ask r) (funext fun x => inline_ofProc (next x))

theorem inline_bind (f : α → Routine β) :
    ∀ r : Routine α, (r >>= f).inline = r.inline >>= fun a => (f a).inline
  | .done _ => rfl
  | .ask r next => congrArg (Proc.ask r) (funext fun x => inline_bind f (next x))
  | .accept g e next => by
      change (g.accept e >>= fun o => (next o >>= f).inline) = _
      rw [inline, Proc.bind_assoc]
      exact congrArg (g.accept e >>= ·) (funext fun o => inline_bind f (next o))

/-- All requests that the routine makes itself, outside of its calls, are `ok`. -/
def Asks (ok : Request → Prop) : Routine α → Prop
  | .done _ => True
  | .ask r next => ok r ∧ ∀ x, Asks ok (next x)
  | .accept _ _ next => ∀ o, Asks ok (next o)

variable {ok : Request → Prop}

theorem asks_done (a : α) : (Routine.done a).Asks ok := trivial

theorem asks_ofProc : ∀ {p : Proc α}, p.Asks ok → (ofProc p).Asks ok
  | .done _, _ => trivial
  | .ask _ _, ⟨hr, h⟩ => ⟨hr, fun x => asks_ofProc (h x)⟩

theorem asks_bind {f : α → Routine β} (hf : ∀ a, (f a).Asks ok) :
    ∀ {r : Routine α}, r.Asks ok → (r >>= f).Asks ok
  | .done a, _ => hf a
  | .ask _ _, ⟨hr, h⟩ => ⟨hr, fun x => asks_bind hf (h x)⟩
  | .accept _ _ _, h => fun o => asks_bind hf (h o)

end Routine

/-! ## Poll cycles -/

namespace Poller

open Routine (ofProc)

/-- `Poller.delegate` with its call kept apart. -/
def handOver (p : Poller) (wait e : Record) (acc : Tally) : Routine Tally :=
  .accept p.engine e fun
    | .resumeReady => .done { acc with hits := acc.hits + 1, resumed := acc.resumed + 1 }
    | .lookupFailed | .markFailed =>
      .done { acc with hits := acc.hits + 1, errors := acc.errors + 1 }
    | outcome => ofProc do
      Proc.note (p.entry .debug "Delegated match"
        [("key", .shown wait.key), ("outcome", .shown outcome.name)])
      return { acc with hits := acc.hits + 1 }

theorem inline_handOver (p : Poller) (wait e : Record) (acc : Tally) :
    (p.handOver wait e acc).inline = p.delegate wait e acc :=
  congrArg (p.engine.accept e >>= ·) (funext fun o => by cases o <;> rfl)

/-- `Poller.visit` with its call kept apart. -/
def call (p : Poller) (acc : Tally) (wait : Record) : Routine Tally :=
  let acc := { acc with paused := acc.paused + 1 }
  if wait.ready then ofProc do
    let woken ← p.engine.wake wait
    return { acc with skipped := acc.skipped + 1, woken := acc.woken + woken }
  else ofProc (candidate wait) >>= fun
    | .ok (some e) => p.handOver wait e acc
    | .ok none => .done acc
    | .error f => ofProc do
      Proc.note (p.entry .warn "Match lookup failed"
        [("key", .shown wait.key), ("error", .shown f.message)])
      return { acc with errors := acc.errors + 1 }

theorem inline_call (p : Poller) (acc : Tally) (wait : Record) :
    (p.call acc wait).inline = p.visit acc wait := by
  unfold call visit
  dsimp only
  split
  · exact Routine.inline_ofProc _
  · rw [Routine.inline_bind, Routine.inline_ofProc]
    refine congrArg (candidate wait >>= ·) (funext fun found => ?_)
    match found with
    | .ok (some e) => exact inline_handOver p wait e _
    | .ok none => rfl
    | .error f => rfl

def callAll (p : Poller) : Tally → List Record → Routine Tally
  | acc, [] => .done acc
  | acc, wait :: rest => p.call acc wait >>= fun acc => callAll p acc rest

theorem inline_callAll (p : Poller) : ∀ (waits : List Record) (acc : Tally),
    (p.callAll acc waits).inline = p.visitAll acc waits
  | [], _ => rfl
  | wait :: rest, acc => by
      rw [callAll, Routine.inline_bind, inline_call, visitAll]
      exact congrArg (p.visit acc wait >>= ·) (funext fun acc => inline_callAll p rest acc)

/-- `Poller.sweep` with its calls kept apart. -/
def rounds (p : Poller) : Routine Tally :=
  .ask (.events .paused) fun
    | .ok waits => p.callAll .zero waits
    | .error f => ofProc do
      Proc.note (p.entry .warn "Failed to list paused contexts" [("error", .shown f.message)])
      return { Tally.zero with errors := 1 }

theorem inline_rounds (p : Poller) : p.rounds.inline = p.sweep := by
  refine congrArg (Proc.ask (.events .paused)) (funext fun waits => ?_)
  cases waits with
  | ok waits => exact inline_callAll p waits _
  | error f => rfl

end Poller

/-! ## Threads -/

/-- What is seen of a call of `accept` from outside: that it made a record ready, completed a key,
or returned. -/
inductive Mark
  /-- The store answered that this call made the record ready. -/
  | flipped (key : String)
  | completed (key : String)
  | returned (key : String) (o : Outcome)
deriving DecidableEq

/-- The marks that an answered request leaves inside a call. -/
def Mark.of : (r : Request) → r.Answer → List Mark
  | .events (.markReady key), .ok true => [.flipped key]
  | .complete _ key _, _ => [.completed key]
  | _, _ => []

/-- How far a thread is: at its own requests, or inside a call on `e`, after which it goes on with
the outcome. -/
inductive Position (α : Type)
  | outside (rest : Routine α)
  | inside (e : Record) (rest : Proc Outcome) (next : Outcome → Routine α)

/-- What is left to do. -/
def Position.remaining {α : Type} : Position α → Proc α
  | .outside rest => rest.inline
  | .inside _ rest next => rest >>= fun o => (next o).inline

structure Thread (α : Type) where
  marks : List Mark
  position : Position α

namespace Thread

variable {α : Type}

def start (r : Routine α) : Thread α := ⟨[], .outside r⟩

/-- One step of a thread: a request, or the beginning or the end of a call. Marks are left only
inside of calls and at their ends. -/
def advance (x : Exposure) : Pool.Stepper (Thread α)
  | _, ⟨ms, .outside (.done a)⟩, s => (⟨ms, .outside (.done a)⟩, s)
  | fault, ⟨ms, .outside (.ask r next)⟩, s =>
    (⟨ms, .outside (next (State.reply x fault r s).1)⟩, (State.reply x fault r s).2)
  | _, ⟨ms, .outside (.accept g e next)⟩, s => (⟨ms, .inside e (g.accept e) next⟩, s)
  | _, ⟨ms, .inside e (.done o) next⟩, s => (⟨.returned e.key o :: ms, .outside (next o)⟩, s)
  | fault, ⟨ms, .inside e (.ask r rest) next⟩, s =>
    (⟨Mark.of r (State.reply x fault r s).1 ++ ms,
      .inside e (rest (State.reply x fault r s).1) next⟩, (State.reply x fault r s).2)

/-- A thread does what the procedure of its routine does; calls begin and end in between, in steps
that leave no trace on the state. -/
theorem advance_remaining (x : Exposure) (fault : Option Fault) (t : Thread α) (s : State) :
    ((advance x fault t s).1.position.remaining, (advance x fault t s).2)
        = Proc.advance x fault t.position.remaining s
      ∨ (advance x fault t s).1.position.remaining = t.position.remaining
        ∧ (advance x fault t s).2 = s := by
  match t with
  | ⟨_, .outside (.done _)⟩ => exact .inl rfl
  | ⟨_, .outside (.ask _ _)⟩ => exact .inl rfl
  | ⟨_, .outside (.accept _ _ _)⟩ => exact .inr ⟨rfl, rfl⟩
  | ⟨_, .inside _ (.done _) _⟩ => exact .inr ⟨rfl, rfl⟩
  | ⟨_, .inside _ (.ask _ _) _⟩ => exact .inl rfl

end Thread

namespace Pool

variable {α : Type}

/-- How often `m` was seen in a pool, over all its threads. -/
def total (w : Pool (Thread α)) (m : Mark) : Nat := (w.threads.flatMap (·.marks)).count m

/-! ## Threads against procedures -/

/-- The procedures that the threads have left to carry out, over the same state. -/
def remaining (w : Pool (Thread α)) : Pool (Proc α) :=
  ⟨w.state, w.threads.map (·.position.remaining)⟩

theorem getElem?_remaining (w : Pool (Thread α)) (i : Nat) :
    w.remaining.threads[i]? = w.threads[i]?.map (·.position.remaining) := List.getElem?_map

variable {x : Exposure} {i : Nat} {fault : Option Fault} {t : Thread α}

theorem go_step {w : Pool (Thread α)} (h : w.threads[i]? = some t) :
    w.go (Thread.advance x) (.step i fault) = ⟨(Thread.advance x fault t w.state).2,
      w.threads.set i (Thread.advance x fault t w.state).1⟩ := by
  rw [go, h]

theorem remaining_go_step {w : Pool (Thread α)} (h : w.threads[i]? = some t) :
    w.remaining.go (Proc.advance x) (.step i fault)
      = ⟨(Proc.advance x fault t.position.remaining w.state).2, w.remaining.threads.set i
        (Proc.advance x fault t.position.remaining w.state).1⟩ := by
  rw [go, getElem?_remaining, h]
  rfl

/-- A thread that begins or ends a call leaves the procedures where they are. -/
theorem remaining_go_quiet {w : Pool (Thread α)} (h : w.threads[i]? = some t)
    (hr : (Thread.advance x fault t w.state).1.position.remaining = t.position.remaining)
    (hs : (Thread.advance x fault t w.state).2 = w.state) :
    (w.go (Thread.advance x) (.step i fault)).remaining = w.remaining := by
  obtain ⟨hi, ht⟩ := List.getElem?_eq_some_iff.mp h
  rw [go_step h, hs, remaining, List.map_set, hr]
  refine congrArg (Pool.mk w.state) ?_
  have hlen : i < (w.threads.map (·.position.remaining)).length := by rwa [List.length_map]
  have hself : t.position.remaining = (w.threads.map (·.position.remaining))[i] := by
    rw [List.getElem_map, ht]
  rw [hself]
  exact List.set_getElem_self _

/-- A thread that makes a request does what its procedure does. -/
theorem remaining_go_match {w : Pool (Thread α)} (h : w.threads[i]? = some t)
    (ht : ((Thread.advance x fault t w.state).1.position.remaining,
        (Thread.advance x fault t w.state).2)
      = Proc.advance x fault t.position.remaining w.state) :
    (w.go (Thread.advance x) (.step i fault)).remaining
      = w.remaining.go (Proc.advance x) (.step i fault) := by
  rw [go_step h, remaining_go_step h, ← ht, remaining, List.map_set]
  rfl

theorem remaining_go (w : Pool (Thread α)) (c : Choice) :
    (w.go (Thread.advance x) c).remaining = w.remaining.go (Proc.advance x) c
      ∨ (w.go (Thread.advance x) c).remaining = w.remaining := by
  cases c with
  | wait ms => exact .inl rfl
  | step i fault =>
      cases h : w.threads[i]? with
      | none =>
          rw [go, h]
          exact .inr rfl
      | some t =>
          rcases Thread.advance_remaining x fault t w.state with ht | ⟨hr, hs⟩
          · exact .inl (remaining_go_match h ht)
          · exact .inr (remaining_go_quiet h hr hs)

/-- From any pool with `t` as its `i`th thread, some decisions on threads come to what one decision
on the `i`th procedure does. -/
def Follows (x : Exposure) (i : Nat) (fault : Option Fault) (t : Thread α) : Prop :=
  ∀ w : Pool (Thread α), w.threads[i]? = some t →
    ∃ cs, (w.run (Thread.advance x) cs).remaining
      = w.remaining.go (Proc.advance x) (.step i fault)

theorem follows_match (ht : ∀ s, ((Thread.advance x fault t s).1.position.remaining,
      (Thread.advance x fault t s).2) = Proc.advance x fault t.position.remaining s) :
    Follows x i fault t :=
  fun w h => ⟨[.step i fault], remaining_go_match h (ht w.state)⟩

theorem follows_quiet {t' : Thread α} (ht : ∀ s, Thread.advance x fault t s = (t', s))
    (hr : t'.position.remaining = t.position.remaining) (h' : Follows x i fault t') :
    Follows x i fault t := by
  intro w h
  have hgo : (w.go (Thread.advance x) (.step i fault)).remaining = w.remaining :=
    remaining_go_quiet h (by rw [ht, hr]) (by rw [ht])
  have hnext : (w.go (Thread.advance x) (.step i fault)).threads[i]? = some t' := by
    rw [go_step h, ht]
    exact List.getElem?_set_self (List.getElem?_eq_some_iff.mp h).1
  obtain ⟨cs, hcs⟩ := h' _ hnext
  exact ⟨.step i fault :: cs, hcs.trans (by rw [hgo])⟩

theorem follows_inside {e : Record} {next : Outcome → Routine α}
    (hnext : ∀ o ms, Follows x i fault ⟨ms, .outside (next o)⟩) :
    ∀ (p : Proc Outcome) (ms : List Mark), Follows x i fault ⟨ms, .inside e p next⟩
  | .done o, _ => follows_quiet (fun _ => rfl) rfl (hnext o _)
  | .ask _ _, _ => follows_match fun _ => rfl

theorem follows_outside : ∀ (r : Routine α) (ms : List Mark),
    Follows x i fault ⟨ms, .outside r⟩
  | .done _, _ | .ask _ _, _ => follows_match fun _ => rfl
  | .accept g e next, _ => follows_quiet (fun _ => rfl) rfl
      (follows_inside (fun o ms => follows_outside (next o) ms) (g.accept e) _)

theorem follows (x : Exposure) (i : Nat) (fault : Option Fault) (t : Thread α) :
    Follows x i fault t := by
  obtain ⟨ms, r | ⟨e, p, next⟩⟩ := t
  · exact follows_outside r ms
  · exact follows_inside (fun o ms => follows_outside (next o) ms) p ms

theorem exists_run_go (w : Pool (Thread α)) (c : Choice) :
    ∃ cs, (w.run (Thread.advance x) cs).remaining = w.remaining.go (Proc.advance x) c := by
  cases c with
  | wait ms => exact ⟨[.wait ms], rfl⟩
  | step i fault =>
      cases h : w.threads[i]? with
      | none =>
          refine ⟨[], ?_⟩
          rw [go, getElem?_remaining, h]
          rfl
      | some t => exact follows x i fault t w h

/-- Threads get wherever the procedures that they carry out get, and nowhere else. So what is proved
of threads, whose calls can be seen, is true of procedures. -/
theorem exists_run_iff {w : Pool (Thread α)} {v : Pool (Proc α)} :
    (∃ cs, (w.run (Thread.advance x) cs).remaining = v)
      ↔ ∃ cs, w.remaining.run (Proc.advance x) cs = v := by
  constructor
  · rintro ⟨cs, rfl⟩
    induction cs generalizing w with
    | nil => exact ⟨[], rfl⟩
    | cons c cs ih =>
        obtain ⟨ds, hds⟩ := ih (w := w.go (Thread.advance x) c)
        rcases remaining_go (x := x) w c with hc | hc
        · exact ⟨c :: ds, by rw [hc] at hds; exact hds⟩
        · exact ⟨ds, by rw [hc] at hds; exact hds⟩
  · rintro ⟨cs, rfl⟩
    induction cs generalizing w with
    | nil => exact ⟨[], rfl⟩
    | cons c cs ih =>
        obtain ⟨ds, hds⟩ := exists_run_go (x := x) w c
        obtain ⟨ds', hds'⟩ := ih (w := w.run (Thread.advance x) ds)
        refine ⟨ds ++ ds', ?_⟩
        rw [run_append, hds', hds]
        rfl

end Pool

end Rendezvous
