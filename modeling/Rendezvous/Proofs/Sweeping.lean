import Rendezvous.Poller
import Rendezvous.Proofs.Acceptance
import Rendezvous.Proofs.Lookup

/-!
# How a poll cycle can go

One cycle is a visit to each wait that was there when it began. `Poller.Visited` lists every way a
visit can go, with any of its calls failing, in terms of the state the visit finds: the waits were
listed at the start, so a wait at hand may be out of date, but what it awaits is looked up anew.
`leads_visitAll` carries what single visits keep through a whole cycle.
-/

namespace Rendezvous

open Proc

/-- The event that a visit to `wait` takes up, if the look-up does not fail: the latest it waits
for, under the wait's key. -/
def RecordStore.candidate? (s : RecordStore) (wait : Record) : Option Record :=
  let found := match wait.eventType with
    | some t => s.latest? wait.order t
    | none => Record.newest? <|
        (s.byOrder wait.order).filter fun e => e.isObserved && e.key ≠ wait.key
  found.map fun e => { e with key := wait.key }

theorem RecordStore.candidate?_some {s : RecordStore} {wait e : Record}
    (h : s.candidate? wait = some e) :
    ∃ r, (∃ key, s.find? key = some r) ∧ r.order = wait.order ∧ r.isObserved = true
      ∧ e = { r with key := wait.key }
      ∧ (∀ t, wait.eventType = some t → r.eventType = some t)
      ∧ (wait.eventType = none → r.key ≠ wait.key) := by
  obtain ⟨r, hr, rfl⟩ := Option.map_eq_some_iff.mp h
  cases ht : wait.eventType with
  | some t =>
      rw [ht] at hr
      obtain ⟨hk, ho, htype, hobs⟩ := observes_of_latest? hr
      refine ⟨r, hk, ho, hobs, rfl, fun u hu => ?_, fun hn => by cases hn⟩
      rw [htype, hu]
  | none =>
      rw [ht] at hr
      obtain ⟨hm, hf⟩ := List.mem_filter.mp (Record.mem_of_newest? hr)
      obtain ⟨hk, ho⟩ := mem_byOrder.mp hm
      simp only [Bool.and_eq_true, decide_eq_true_eq] at hf
      exact ⟨r, hk, ho, hf.1, rfl, fun u hu => (by cases hu), fun _ => hf.2⟩

namespace Engine

/-- Only a ready record is handed to anybody. -/
theorem asks_wake_of {ok : Request → Prop} (hi : ∀ r, r.Idle → ok r) (g : Engine) {r : Record}
    (hc : r.ready = true → ∀ mailbox, ok (.complete mailbox r.key r)) : (g.wake r).Asks ok := by
  unfold wake
  cases g.mailbox with
  | none => trivial
  | some mailbox =>
      dsimp only
      split
      · trivial
      · rename_i hr
        refine asks_bind (fun n => ?_) (asks_request (hi _ trivial))
        split
        · trivial
        · refine asks_bind (fun _ => ?_)
            (asks_complete (hc (by simpa using hr) mailbox) fun _ => hi _ trivial)
          exact asks_bind (fun _ => asks_pure _) (asks_request (hi _ trivial))

theorem asks_wake (g : Engine) (r : Record) : (g.wake r).Asks Request.SparesRecords :=
  asks_wake_of (fun _ => Request.Idle.sparesRecords) g fun _ _ => trivial

/-- The ways to hand a ready record to the receivers of its key, each with the number woken and the
state it leaves. -/
inductive Woken (g : Engine) (r : Record) (s : State) : Nat → State → Prop
  | detached : g.mailbox = none → Woken g r s 0 s
  | unready : r.ready = false → Woken g r s 0 s
  | idle {mailbox} : g.mailbox = some mailbox → (s.mailboxes mailbox).waiting r.key = 0 →
      Woken g r s 0 s
  | woken {mailbox} : g.mailbox = some mailbox → r.ready = true →
      (s.mailboxes mailbox).waiting r.key ≠ 0 →
      Woken g r s (s.complete mailbox r.key r).1.delivered (s.complete mailbox r.key r).2

theorem leads_wake (x : Exposure) (g : Engine) (r : Record) (s : State) :
    Leads (State.reply x) (Woken g r s) (g.wake r) s := by
  unfold wake
  cases hm : g.mailbox with
  | none => exact leads_done.mpr (.detached hm)
  | some mailbox =>
      dsimp only
      split
      · rename_i hr
        exact leads_done.mpr (.unready (by simpa using hr))
      · rename_i hr
        refine leads_request fun _ => ?_
        change Leads _ _ (if (s.mailboxes mailbox).waiting r.key = 0 then _ else _) s
        split
        · exact leads_done.mpr (.idle hm ‹_›)
        · exact leads_complete (leads_note (leads_done.mpr (.woken hm (by simpa using hr) ‹_›)))

end Engine

/-- The counts of a cycle once an event it took up has gone the way that the outcome says. -/
def Tally.counting (acc : Tally) : Outcome → Tally
  | .resumeReady => { acc with hits := acc.hits + 1, resumed := acc.resumed + 1 }
  | .lookupFailed | .markFailed => { acc with hits := acc.hits + 1, errors := acc.errors + 1 }
  | _ => { acc with hits := acc.hits + 1 }

namespace Poller

/-- The ways a visit to a wait can go, with the counts and the state each leaves. The visits of a
cycle follow on each other by these. -/
inductive Visited (x : Exposure) (p : Poller) (acc : Tally) (wait : Record) (s : State) :
    Tally → State → Prop
  | ready {n t} : wait.ready = true → p.engine.Woken wait s n t →
      Visited x p acc wait s { acc with
        paused := acc.paused + 1, skipped := acc.skipped + 1, woken := acc.woken + n } t
  | lookupFailed : wait.ready = false → x.events = true →
      Visited x p acc wait s { acc with paused := acc.paused + 1, errors := acc.errors + 1 } s
  | nothing : wait.ready = false → s.events.candidate? wait = none →
      Visited x p acc wait s { acc with paused := acc.paused + 1 } s
  | delegated {e o t} : wait.ready = false → s.events.candidate? wait = some e →
      p.engine.Accepted x e s o t →
      Visited x p acc wait s (Tally.counting { acc with paused := acc.paused + 1 } o) t

variable {x : Exposure} {p : Poller}

theorem asks_candidate (wait : Record) : (candidate wait).Asks Request.Idle := by
  unfold candidate
  cases wait.eventType with
  | some t => exact ⟨trivial, fun found => by cases found <;> trivial⟩
  | none => exact ⟨trivial, fun found => by cases found <;> trivial⟩

theorem leads_candidate (x : Exposure) (wait : Record) (s : State) :
    Leads (State.reply x) (fun found t => t = s ∧ (found = .ok (s.events.candidate? wait)
      ∨ x.events = true ∧ ∃ f, found = .error f)) (candidate wait) s := by
  unfold candidate
  cases ht : wait.eventType with
  | some t =>
      refine leads_events ?_ fun hx f => leads_done.mpr ⟨rfl, .inr ⟨hx, f, rfl⟩⟩
      refine leads_done.mpr ⟨rfl, .inl ?_⟩
      rw [RecordStore.candidate?, ht]
      rfl
  | none =>
      refine leads_events ?_ fun hx f => leads_done.mpr ⟨rfl, .inr ⟨hx, f, rfl⟩⟩
      refine leads_done.mpr ⟨rfl, .inl ?_⟩
      rw [RecordStore.candidate?, ht]
      rfl

theorem leads_delegate (x : Exposure) (p : Poller) (wait e : Record) (acc : Tally) (s : State) :
    Leads (State.reply x) (fun acc' t => ∃ o, p.engine.Accepted x e s o t
      ∧ acc' = Tally.counting acc o) (p.delegate wait e acc) s := by
  refine leads_bind ((Engine.leads_accept x p.engine e s).mono fun o t h => ?_)
  cases o with
  | resumeReady | lookupFailed | markFailed => exact leads_done.mpr ⟨_, h, rfl⟩
  | _ => exact leads_note (leads_done.mpr ⟨_, h, rfl⟩)

/-- Every way a visit can go. -/
theorem leads_visit (x : Exposure) (p : Poller) (acc : Tally) (wait : Record) (s : State) :
    Leads (State.reply x) (Visited x p acc wait s) (p.visit acc wait) s := by
  unfold visit
  dsimp only
  split
  · exact leads_bind ((Engine.leads_wake x p.engine wait s).mono fun n t h =>
      leads_done.mpr (.ready ‹_› h))
  · rename_i hr
    replace hr : wait.ready = false := by simpa using hr
    refine leads_bind ((leads_candidate x wait s).mono ?_)
    rintro found t ⟨rfl, rfl | ⟨hx, f, rfl⟩⟩
    · cases hc : t.events.candidate? wait with
      | none => exact leads_done.mpr (.nothing hr hc)
      | some e =>
          refine (leads_delegate x p wait e _ t).mono ?_
          rintro acc' u ⟨o, ho, rfl⟩
          exact .delegated hr hc ho
    · exact leads_note (leads_done.mpr (.lookupFailed hr hx))

/-- What each visit passes on holds at the end of the cycle. This is the one induction over the
waits of a cycle; invariants only have to be shown for a visit. -/
theorem leads_visitAll {J : Tally → List Record → State → Prop}
    (step : ∀ acc wait rest s acc' t, J acc (wait :: rest) s → Visited x p acc wait s acc' t →
      J acc' rest t) :
    ∀ (waits : List Record) (acc : Tally) (s : State), J acc waits s →
      Leads (State.reply x) (fun acc' t => J acc' [] t) (p.visitAll acc waits) s
  | [], _, _, h => leads_done.mpr h
  | wait :: rest, acc, s, h => leads_bind ((leads_visit x p acc wait s).mono fun acc' t hv =>
      leads_visitAll step rest acc' t (step acc wait rest s acc' t h hv))

/-- A cycle fails to list the waits and does nothing else, or it visits the waits of that moment. -/
theorem leads_sweep {J : Tally → List Record → State → Prop}
    (step : ∀ acc wait rest s acc' t, J acc (wait :: rest) s → Visited x p acc wait s acc' t →
      J acc' rest t) {s : State} (h : J .zero s.events.paused s) :
    Leads (State.reply x) (fun acc t => J acc [] t
      ∨ x.events = true ∧ acc = { Tally.zero with errors := 1 } ∧ t = s) p.sweep s := by
  refine leads_events ?_ fun hx f => ?_
  · exact (leads_visitAll step _ _ _ h).mono fun _ _ h => .inl h
  · exact leads_note (leads_done.mpr (.inr ⟨hx, rfl, rfl⟩))

/-- A cycle whose first call succeeds visits the waits of that moment. -/
theorem runFaulty_sweep (x : Exposure) (p : Poller) {faults : Nat → Option Fault}
    (h : faults 0 = none) (s : State) :
    runFaulty x faults p.sweep s
      = runFaulty x (fun n => faults (n + 1)) (p.visitAll .zero s.events.paused) s := by
  have hs : p.sweep = .ask (.events .paused) fun waits => match waits with
      | .ok waits => p.visitAll .zero waits
      | .error f => do
        note (p.entry .warn "Failed to list paused contexts" [("error", .shown f.message)])
        return { Tally.zero with errors := 1 } := rfl
  rw [hs, runFaulty, runWith, h, State.reply_nofault]
  rfl

end Poller

end Rendezvous
