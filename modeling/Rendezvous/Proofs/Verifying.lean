import Rendezvous.Proofs.Recording

/-!
# How a verification can go

`Verifier.verify` by itself, with any of its calls failing. `Verifier.Verified` lists the results
it can have, each with what becomes of the record store. Whatever is known or recorded about the
scenario's progress touches no record.
-/

namespace Rendezvous

open Proc

namespace Progress

theorem asks_load (s : Scenario) : Asks Request.Idle (load s) :=
  asks_bind (fun known => by
    cases known with
    | ok state => trivial
    | error f => exact ⟨trivial, fun _ => trivial⟩) (asks_request trivial)

theorem asks_succeeded (s : Scenario) (step : String) :
    Asks Request.Idle (succeeded s step) :=
  asks_bind (fun _ => asks_pure _) (asks_load s)

theorem asks_data (s : Scenario) (step : String) : Asks Request.Idle (data s step) :=
  asks_bind (fun _ => asks_pure _) (asks_load s)

theorem asks_update (s : Scenario) (change : ScenarioState → Instant → ScenarioState) :
    Asks Request.Idle (update s change) := by
  refine asks_bind (fun known => ?_) (asks_request trivial)
  cases known with
  | error f => trivial
  | ok known =>
      refine asks_bind (fun time => ?_) (asks_request trivial)
      refine asks_bind (fun saved => ?_) (asks_request trivial)
      cases saved <;> trivial

theorem asks_mark (s : Scenario) (step : String) (status : StepStatus) (data : Option Capture) :
    Asks Request.Idle (mark s step status data) :=
  asks_bind (fun marked => by cases marked <;> exact asks_request trivial) (asks_update s _)

end Progress

namespace Verifier

section

variable {ok : Request → Prop} {q : Question} (hi : ∀ r, r.Idle → ok r)
  (hp : ∀ time, ok (.events (.markPaused (placeholder q time))))

include hi hp

/-- Besides idle requests a verification makes one pause. -/
theorem asks_ask_of : (ask q).Asks ok := by
  have mark : ∀ status data,
      (Progress.mark q.site.scenario q.site.step status data).Asks ok :=
    fun _ _ => (Progress.asks_mark _ _ _ _).mono hi
  refine asks_bind (fun found => ?_) (asks_request (hi _ trivial))
  match found with
  | .error f => trivial
  | .ok (some e) => exact asks_bind (fun _ => asks_pure _) (mark _ _)
  | .ok none =>
      refine asks_bind (fun time => ?_) (asks_request (hi _ trivial))
      refine asks_bind (fun paused => ?_) (asks_request (hp time))
      cases paused with
      | error f => trivial
      | ok =>
          exact asks_bind (fun _ => asks_bind (fun _ => asks_pure _)
            (asks_request (hi (.note _) trivial))) (mark _ _)

theorem asks_verify_of : (verify q).Asks ok := by
  refine asks_bind (fun passed => ?_) ((Progress.asks_succeeded _ _).mono hi)
  cases passed with
  | false => exact asks_ask_of hi hp
  | true =>
      refine asks_bind (fun _ => ?_) (asks_request (hi _ trivial))
      exact asks_bind (fun _ => asks_pure _) ((Progress.asks_data _ _).mono hi)

end

/-- The results a verification can have, and the record store each one leaves. What becomes of the
progress is told elsewhere (`Verifier.Went`). -/
inductive Verified (x : Exposure) (q : Question) (s : State) :
    Except Fault Verification → RecordStore → Prop
  | skipped (data) : Verified x q s (.ok (.skipped data)) s.events
  | ready {e} : s.events.latest? q.order q.eventType = some e →
      Verified x q s (.ok (.ready e)) s.events
  | notReady : s.events.latest? q.order q.eventType = none →
      Verified x q s (.ok (.notReady q.key)) (s.events.markPaused (placeholder q s.now) s.now)
  | failed {f} : x.events = true → Verified x q s (.error f) s.events

variable {x : Exposure} {q : Question} {s t : State} {l : List Bool} {v : Except Fault Verification}

/-- What is recorded of the progress touches no record. -/
theorem Went.verified (h : Went x q s l v t) : Verified x q s v t.events := by
  cases h with
  | skipped | skippedBlind => exact .skipped _
  | asked _ hasked | askedBlind _ hasked =>
      cases hasked with
      | lookupFailed hx | pauseFailed _ hx => exact .failed hx
      | ready hl hmark => cases hmark <;> exact .ready hl
      | notReady hl hmark => cases hmark <;> exact .notReady hl

/-- Every result of a verification. -/
theorem leads_verify (x : Exposure) (q : Question) (s : State) :
    Leads (State.reply x) (fun v t => Verified x q s v t.events) (verify q) s :=
  (tells_verify x q s).leads.mono fun _ _ ⟨_, h⟩ => h.verified

end Verifier

end Rendezvous
