import Rendezvous.Engine
import Rendezvous.Proofs.Actions
import Rendezvous.Proofs.Writes

/-!
# How an accepted event can go

`Engine.accept` by itself, with any of its calls failing: `Engine.Accepted` lists every way it can
go, with what was found on the way and the state it leaves. Later arguments split on these cases
and never open `accept`. `Engine.accept_eq` cuts it in two: the event is saved, if that succeeds,
and then looked up and settled, whether or not it was saved. What each half does on the way is said
by its `acts_` rule, from which what it leaves follows.
-/

namespace Rendezvous

open Proc

namespace State

/-- The state once `e` has been saved. -/
def saved (s : State) (e : Record) : State := { s with events := s.events.save e }

/-- The state once it was tried to save `e`. A save that fails leaves everything as it was, and the
engine goes on in the same way. -/
def savedIf (s : State) (e : Record) (saved : Bool) : State := if saved then s.saved e else s

/-- The state once the wait of `e` is ready and its receivers have `e`. Without a mailbox there is
nobody to have it. -/
def resumed (s : State) (g : Engine) (e : Record) : State :=
  let s := { s with events := (s.events.markReady e.key).2 }
  match g.mailbox with
  | some mailbox => (s.complete mailbox e.key e).2
  | none => s

theorem resumed_events (s : State) (g : Engine) (e : Record) :
    (s.resumed g e).events = (s.events.markReady e.key).2 := by
  unfold resumed
  split <;> rfl

end State

namespace Engine

/-! ## The two halves of `accept` -/

/-- The first part of `accept`: saves an event as well as it can. What follows does not depend on
how that went. -/
def persist (e : Record) : Proc Unit := do
  if let .error f ← events (.save e) then
    note (keyEntry .warn "Failed to persist event (continuing)" e.key (some f))

/-- The second part of `accept`: reads back what is kept under the key of an event, and makes the
wait ready if it is over. -/
def settle (g : Engine) (e : Record) : Proc Outcome := do
  match ← events (.find e.key) with
  | .ok (some current) => g.resume e current
  | .ok none =>
    note (keyEntry .debug "No stored record after persist" e.key none)
    return .recorded
  | .error f =>
    note (keyEntry .warn "Failed to look up paused context" e.key (some f))
    return .lookupFailed

/-- The last part of `accept`, when there was a call to make the wait ready: what is done about each
answer to it. -/
def conclude (g : Engine) (e : Record) : Except Fault Bool → Proc Outcome
  | .ok true => do
    note (keyEntry .info "Paused context marked resume-ready" e.key none)
    if let some mailbox := g.mailbox then
      let _ ← complete mailbox e.key e
    return .resumeReady
  | .ok false => do
    note (keyEntry .debug "Another writer already marked resume-ready" e.key none)
    return .alreadyReady
  | .error f => do
    note (keyEntry .warn "Failed to mark resume-ready" e.key (some f))
    return .markFailed

/-- All that follows is a completion and what there is to log. -/
theorem asks_conclude_of {ok : Request → Prop} (hn : ∀ entry, ok (.note entry)) {g : Engine}
    {e : Record} (hc : ∀ mailbox, ok (.complete mailbox e.key e)) :
    ∀ answer, (g.conclude e answer).Asks ok
  | .ok false | .error _ => ⟨hn _, fun _ => trivial⟩
  | .ok true => by
      refine asks_bind (fun _ => ?_) (asks_request (hn _))
      cases g.mailbox with
      | none => trivial
      | some mailbox => exact asks_bind (fun _ => asks_pure _) (asks_complete (hc mailbox) hn)

theorem asks_conclude (g : Engine) (e : Record) (answer : Except Fault Bool) :
    (g.conclude e answer).Asks Request.SparesRecords :=
  asks_conclude_of (fun _ => trivial) (fun _ => trivial) answer

/-- A record is made ready if it is a wait for the event and is not ready; otherwise there is
nothing to do but to report why. -/
theorem resume_cases (g : Engine) (e current : Record) :
    (∃ entry o, o ≠ .resumeReady ∧ g.resume e current = (note entry >>= fun _ => .done o)
      ∧ (current.paused = true → current.awaits e.eventType = true → current.ready = true))
    ∨ (current.paused = true ∧ current.awaits e.eventType = true ∧ current.ready = false
      ∧ g.resume e current = (events (.markReady e.key) >>= g.conclude e)) := by
  unfold resume
  split
  · rename_i hp
    exact .inl ⟨_, _, by decide, rfl, fun h => by simp [h] at hp⟩
  · rename_i hp
    split
    · rename_i ha
      exact .inl ⟨_, _, by decide, rfl, fun _ h => by simp [h] at ha⟩
    · rename_i ha
      split
      · exact .inl ⟨_, _, by decide, rfl, fun _ _ => ‹_›⟩
      · rename_i hr
        refine .inr ⟨by simpa using hp, by simpa using ha, by simpa using hr, ?_⟩
        refine congrArg (Proc.ask (.events (.markReady e.key))) (funext fun x => ?_)
        match x with
        | .ok true | .ok false | .error f => rfl

theorem accept_of_blank (g : Engine) {e : Record} (h : Text.blank e.key = true) :
    g.accept e = do
      note (entry .warn "Ignoring event without canonical key"
        [("order_id", .shown e.order), ("event_type", .shown (Text.quoteOption e.eventType))])
      return .ignored := by
  rw [accept, if_pos h]

theorem accept_eq (g : Engine) {e : Record} (h : Text.blank e.key = false) :
    g.accept e = (persist e >>= fun _ => g.settle e) := by
  rw [accept, if_neg (by rw [h]; decide)]
  refine congrArg (Proc.ask (.events (.save e))) (funext fun x => ?_)
  cases x <;> rfl

/-! ## Alone -/

/-- What saving the event has come to: it was saved, or the call failed and nothing has changed. -/
inductive Persisted (x : Exposure) (e : Record) (s : State) : State → Prop
  | saved : Persisted x e s (s.saved e)
  | failed : x.events = true → Persisted x e s s

/-- The ways to settle an event, each with its outcome and the state it leaves. Which of them is
taken follows from what is kept under the key and from whether the calls are answered. -/
inductive Settled (x : Exposure) (g : Engine) (e : Record) (s : State) : Outcome → State → Prop
  | lookupFailed : x.events = true → Settled x g e s .lookupFailed s
  | absent : s.events.find? e.key = none → Settled x g e s .recorded s
  | unpaused {r} : s.events.find? e.key = some r → r.paused = false →
      Settled x g e s .recorded s
  | mismatch {r} : s.events.find? e.key = some r → r.paused = true →
      r.awaits e.eventType = false → Settled x g e s .mismatch s
  | alreadyReady {r} : s.events.find? e.key = some r → r.paused = true →
      r.awaits e.eventType = true → r.ready = true → Settled x g e s .alreadyReady s
  | markFailed {r} : s.events.find? e.key = some r → r.paused = true →
      r.awaits e.eventType = true → r.ready = false → x.events = true →
      Settled x g e s .markFailed s
  | resumeReady {r} : s.events.find? e.key = some r → r.paused = true →
      r.awaits e.eventType = true → r.ready = false →
      Settled x g e s .resumeReady (s.resumed g e)

/-- The ways of an event that is handed to an engine, from its key to its outcome. All that is
proved of `accept` by cases goes by these and never opens the procedure. -/
inductive Accepted (x : Exposure) (g : Engine) (e : Record) (s : State) : Outcome → State → Prop
  | ignored : Text.blank e.key = true → Accepted x g e s .ignored s
  | settled {s₁ o t} : Text.blank e.key = false → Persisted x e s s₁ → Settled x g e s₁ o t →
      Accepted x g e s o t

/-- What is done about a wait that was looked up, once the outcome is known: the call to make it
ready and, if that succeeds, the completion of its key. -/
def ending (g : Engine) (e : Record) : Outcome → List Action
  | .resumeReady =>
      .called (.markReady e.key) true :: (g.mailbox.map (Action.completed · e.key e)).toList
  | .markFailed => [.called (.markReady e.key) false]
  | _ => []

theorem acts_persist (x : Exposure) (e : Record) (s : State) :
    Acts x (fun l _ t => ∃ saved, l = [.called (.save e) saved] ∧ t = s.savedIf e saved
      ∧ Persisted x e s t) (persist e) s := by
  refine acts_events ?_ fun hx f => ?_
  · exact acts_done.mpr ⟨true, rfl, rfl, .saved⟩
  · exact acts_note (acts_done.mpr ⟨false, rfl, rfl, .failed hx⟩)

theorem leads_persist (x : Exposure) (e : Record) (s : State) :
    Leads (State.reply x) (fun _ => Persisted x e s) (persist e) s :=
  (acts_persist x e s).leads.mono fun _ _ ⟨_, _, _, _, h⟩ => h

theorem acts_resume (x : Exposure) (g : Engine) {e r : Record} {s : State}
    (hr : s.events.find? e.key = some r) :
    Acts x (fun l o t => l = g.ending e o ∧ o ≠ .lookupFailed ∧ Settled x g e s o t)
      (g.resume e r) s := by
  unfold resume
  split
  · rename_i hp
    exact acts_note (acts_done.mpr ⟨rfl, by decide, .unpaused hr (by simpa using hp)⟩)
  · rename_i hp
    replace hp : r.paused = true := by simpa using hp
    split
    · rename_i ha
      exact acts_note (acts_done.mpr ⟨rfl, by decide, .mismatch hr hp (by simpa using ha)⟩)
    · rename_i ha
      replace ha : r.awaits e.eventType = true := by simpa using ha
      split
      · exact acts_note (acts_done.mpr ⟨rfl, by decide, .alreadyReady hr hp ha ‹_›⟩)
      · rename_i hready
        replace hready : r.ready = false := by simpa using hready
        refine acts_events ?_ fun hx f => ?_
        · have hflip : (State.answerEvents (.markReady e.key) s).1 = true :=
            (s.events.markReady_fst e.key).mpr ⟨r, hr, hready⟩
          rw [hflip]
          have hdone := Settled.resumeReady (x := x) (g := g) hr hp ha hready
          unfold State.resumed at hdone
          refine acts_note ?_
          unfold ending
          cases hm : g.mailbox with
          | none =>
              rw [hm] at hdone
              exact acts_done.mpr ⟨rfl, by decide, hdone⟩
          | some mailbox =>
              rw [hm] at hdone
              exact acts_complete (acts_done.mpr ⟨rfl, by decide, hdone⟩)
        · exact acts_note (acts_done.mpr ⟨rfl, by decide, .markFailed hr hp ha hready hx⟩)

theorem acts_settle (x : Exposure) (g : Engine) (e : Record) (s : State) :
    Acts x (fun l o t => l = .called (.find e.key) (o ≠ .lookupFailed) :: g.ending e o
      ∧ Settled x g e s o t) (g.settle e) s := by
  refine acts_events ?_ fun hx f => ?_
  · cases hr : s.events.find? e.key with
    | none =>
        simp only [State.answerEvents, hr]
        exact acts_note (acts_done.mpr ⟨rfl, .absent hr⟩)
    | some r =>
        simp only [State.answerEvents, hr]
        refine (acts_resume x g hr).mono fun l o t ⟨hl, ho, h⟩ => ⟨?_, h⟩
        rw [hl, decide_eq_true ho]
  · exact acts_note (acts_done.mpr ⟨rfl, .lookupFailed hx⟩)

theorem leads_settle (x : Exposure) (g : Engine) (e : Record) (s : State) :
    Leads (State.reply x) (Settled x g e s) (g.settle e) s :=
  (acts_settle x g e s).leads.mono fun _ _ ⟨_, _, h⟩ => h

/-- Every way an accepted event can go, whatever fails. This is the one proof that follows `accept`
request by request; others go by the cases of `Accepted`. -/
theorem leads_accept (x : Exposure) (g : Engine) (e : Record) (s : State) :
    Leads (State.reply x) (Accepted x g e s) (g.accept e) s := by
  cases hkey : Text.blank e.key with
  | true =>
      rw [accept_of_blank g hkey]
      exact leads_note (leads_done.mpr (.ignored hkey))
  | false =>
      rw [accept_eq g hkey]
      exact leads_bind ((leads_persist x e s).mono fun _ s₁ hs =>
        (leads_settle x g e s₁).mono fun _ _ h => Accepted.settled hkey hs h)

/-! ## What settling does to the records -/

variable {x : Exposure} {g : Engine} {e : Record} {s t : State} {o : Outcome}

namespace Settled

theorem ne_ignored (h : g.Settled x e s o t) : o ≠ .ignored := by
  cases h <;> decide

theorem state_eq (h : g.Settled x e s o t) :
    t = if o = .resumeReady then s.resumed g e else s := by
  cases h <;> rfl

theorem events_eq (h : g.Settled x e s o t) :
    t.events = if o = .resumeReady then (s.events.markReady e.key).2 else s.events := by
  rw [h.state_eq]
  split
  · exact s.resumed_events g e
  · rfl

theorem find?_other (h : g.Settled x e s o t) {key : String} (hne : key ≠ e.key) :
    t.events.find? key = s.events.find? key := by
  rw [h.events_eq]
  split
  · rw [RecordStore.find?_markReady, if_neg hne]
  · rfl

theorem find?_self (h : g.Settled x e s o t) : t.events.find? e.key
    = (s.events.find? e.key).map fun q => { q with ready := q.ready || o = .resumeReady } := by
  rw [h.events_eq]
  split
  · rename_i ho
    rw [RecordStore.find?_markReady, if_pos rfl]
    simp only [ho, decide_true, Bool.or_true]
  · rename_i ho
    simp only [ho, decide_false, Bool.or_false]
    exact Option.map_id'.symm

end Settled

end Engine

end Rendezvous
