import Rendezvous.Engine

/-!
# Pollers

A poller looks for events that a wait was not told about. One cycle lists the waits and, for each
that is not ready, the latest event it waits for; that event goes to the engine under the key of
the wait. A failure at one wait is counted and the cycle goes on with the next.
-/

namespace Rendezvous

/-- The counts of one cycle, called `PollStats` in the system. Each wait counts as paused; the other
counts say what became of it, and receivers woken are counted one by one. -/
structure Tally where
  paused : Nat
  /-- Waits that were ready already. -/
  skipped : Nat
  woken : Nat
  hits : Nat
  resumed : Nat
  errors : Nat
deriving DecidableEq

def Tally.zero : Tally := ⟨0, 0, 0, 0, 0, 0⟩

def Tally.text (s : Tally) : String :=
  s!"paused={s.paused} skipped={s.skipped} woken={s.woken} hits={s.hits} " ++
    s!"resumed={s.resumed} errors={s.errors}"

/-- A poller: its name in the log, the engine it hands events to and how long it rests between two
cycles. It shares its store with the engine. -/
structure Poller where
  name : String
  engine : Engine
  intervalMs : Nat
deriving DecidableEq

namespace Poller

open Proc

def entry (p : Poller) (level : Level) (message : String) (fields : List (String × LogValue)) :
    LogEntry :=
  ⟨level, "resume_engine::poller", message, ("poller", .shown p.name) :: fields⟩

/-- The latest event that `wait` waits for, under the key of the wait (`detect`). For a wait without
a type that is any event of its order kept under another key. The new key makes sure that the engine
looks up the wait, and not the record the event was found in. -/
def candidate (wait : Record) : Proc (Except Fault (Option Record)) := do
  match wait.eventType with
  | some t =>
    match ← events (.latest wait.order t) with
    | .error f => return .error f
    | .ok found => return .ok (found.map ({ · with key := wait.key }))
  | none =>
    match ← events (.byOrder wait.order) with
    | .error f => return .error f
    | .ok records =>
      let found := Record.newest? (records.filter fun e => e.isObserved && e.key ≠ wait.key)
      return .ok (found.map ({ · with key := wait.key }))

/-- Hands the event detected for `wait` to the engine and counts it as a hit. What the engine made
of it decides whether it counts as a resumption or an error, too. -/
def delegate (p : Poller) (wait e : Record) (s : Tally) : Proc Tally := do
  let s := { s with hits := s.hits + 1 }
  match ← p.engine.accept e with
  | .resumeReady => return { s with resumed := s.resumed + 1 }
  | .lookupFailed | .markFailed => return { s with errors := s.errors + 1 }
  | outcome =>
    note (p.entry .debug "Delegated match"
      [("key", .shown wait.key), ("outcome", .shown outcome.name)])
    return s

/-- One wait of a cycle. A wait that is ready already is not looked at any further, except that
receivers here may still have to be woken: it may have been made ready elsewhere. A failing look-up
is counted, and the cycle goes on. -/
def visit (p : Poller) (s : Tally) (wait : Record) : Proc Tally := do
  let s := { s with paused := s.paused + 1 }
  if wait.ready then
    let woken ← p.engine.wake wait
    return { s with skipped := s.skipped + 1, woken := s.woken + woken }
  else
    match ← candidate wait with
    | .ok (some e) => p.delegate wait e s
    | .ok none => return s
    | .error f =>
      note (p.entry .warn "Match lookup failed"
        [("key", .shown wait.key), ("error", .shown f.message)])
      return { s with errors := s.errors + 1 }

/-- The waits of a cycle, one after the other in the order they were listed. A wait that is left
behind in the meantime has to wait for the next cycle. -/
def visitAll (p : Poller) : Tally → List Record → Proc Tally
  | s, [] => return s
  | s, wait :: rest => do visitAll p (← p.visit s wait) rest

/-- One cycle, `poll_once` in the system: lists the waits and visits each. A listing that fails is
the only error of its cycle. -/
def sweep (p : Poller) : Proc Tally := do
  match ← events .paused with
  | .ok waits => p.visitAll .zero waits
  | .error f =>
    note (p.entry .warn "Failed to list paused contexts" [("error", .shown f.message)])
    return { Tally.zero with errors := 1 }

/-! ## A poller at work -/

def started (p : Poller) : LogEntry :=
  p.entry .info "Poller started" [("interval_ms", .count p.intervalMs)]

def stopped (p : Poller) : LogEntry := p.entry .info "Poller stopped" []

/-- What a cycle reports. One that found something, woke somebody or failed at something is worth an
info. -/
def report (p : Poller) (s : Tally) : LogEntry :=
  let level := if 0 < s.hits || 0 < s.woken || 0 < s.errors then Level.info else .debug
  p.entry level s!"Poll cycle: {s.text}" []

/-- A cycle of a poller at work: a sweep, and a report of what it came to. -/
def cycle (p : Poller) : Proc Unit := do note (p.report (← p.sweep))

end Poller

end Rendezvous
