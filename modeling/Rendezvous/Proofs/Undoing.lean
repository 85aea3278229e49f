import Rendezvous.Proofs.Recording

/-!
# How a passed step is undone

A verification first reads whether its step has passed. If the read fails, it goes on as if the step
had not, and it records what it finds over what was kept. It takes all its other calls for that: a
passed step is undone exactly if the first read fails, everything after it is answered, and the
event found is not the one that was captured (`passed_kept_iff`). So one failure undoes a step
(`reset_undoes`) where two do not (`resets_keep`).
-/

namespace Rendezvous

open Proc

/-- A verification of `q` from `s`, whose calls have the outcomes `l`, records something else over
the success with `data`: only the read of the progress fails, and there is no event, or another. -/
structure Question.Overwrites (q : Question) (data : Option Capture) (s : State) (l : List Bool) :
    Prop where
  blind : l.head? = some false
  answered : l.tail.all id = true
  other : ∀ e, s.events.latest? q.order q.eventType = some e → data ≠ some (.ofEvent e)

namespace Verifier

variable {x : Exposure} {q : Question} {s t : State} {l : List Bool} {data : Option Capture}
  {v : Except Fault Verification}

/-- A verification keeps a passed step unless it overwrites it, which it does only if it could not
read that the step had passed. -/
theorem Went.passed_iff (h : Went x q s l v t) (hs : s.scenarios.Keyed)
    (hpassed : s.scenarios.Passed q.site.scenario.key q.site.step data) :
    t.scenarios.Passed q.site.scenario.key q.site.step data ↔ ¬ q.Overwrites data s l := by
  cases h with
  | skipped | skippedBlind => exact iff_of_true hpassed fun ho => nomatch ho.blind
  | asked hnot => cases (State.knowsPassed_of_passed hpassed).symm.trans hnot
  | askedBlind _ hasked =>
      cases hasked with
      | lookupFailed | pauseFailed => exact iff_of_true hpassed fun ho => nomatch ho.answered
      | @ready e l _ hfound hmark =>
          cases hmark with
          | failed _ hl => exact iff_of_true hpassed fun ho => nomatch hl.symm.trans ho.answered
          | made hl =>
              rw [State.concluded, State.passed_marked_self_iff hs]
              constructor
              · rintro ⟨-, rfl⟩ ho
                exact ho.other e hfound rfl
              · intro hkept
                refine ⟨rfl, Classical.byContradiction fun hne => hkept ⟨rfl, hl, ?_⟩⟩
                rintro e' he' rfl
                obtain rfl := Option.some.inj (hfound.symm.trans he')
                exact hne rfl
      | notReady hfound hmark =>
          cases hmark with
          | failed _ hl => exact iff_of_true hpassed fun ho => nomatch hl.symm.trans ho.answered
          | made hl =>
              refine iff_of_false (fun h => ?_) fun hkept => hkept ⟨rfl, hl, fun e he => ?_⟩
              · obtain ⟨hstatus, -⟩ := (State.passed_marked_self_iff (s := s.waiting q) hs).mp h
                cases hstatus
              · cases hfound.symm.trans he

theorem Went.keyed (h : Went x q s l v t) (hs : s.scenarios.Keyed) : t.scenarios.Keyed := by
  cases h with
  | skipped | skippedBlind => exact hs
  | asked _ hasked | askedBlind _ hasked =>
      cases hasked with
      | lookupFailed | pauseFailed => exact hs
      | ready _ hmark | notReady _ hmark =>
          cases hmark with
          | made => exact hs.save _
          | failed => exact hs

/-! ## Verifications that wait -/

/-- A verification that may wait, as a whole. While it waits, others make `meanwhile` of the state,
until the wait ends as `how` says; `faults` and `faults'` befall the requests of its two halves. -/
def whole (v : Verifier) (q : Question) (timeout : Nat) (faults : Nat → Option Fault)
    (meanwhile : State → State) (how : Wakeup) (faults' : Nat → Option Fault) (s : State) : State :=
  let first := runFaulty .all faults (v.start q) s
  match first.1 with
  | .finished _ => first.2
  | .waiting _ _ => (runFaulty .all faults' (finish q timeout how) (meanwhile first.2)).2

theorem passed_start_iff (hs : s.scenarios.Keyed)
    (hpassed : s.scenarios.Passed q.site.scenario.key q.site.step data) (v : Verifier)
    (faults : Nat → Option Fault) :
    (runFaulty .all faults (v.start q) s).2.scenarios.Passed q.site.scenario.key q.site.step data
      ↔ ¬ q.Overwrites data s (outcomes .all faults (v.start q) s) := by
  obtain ⟨result, u, hwent, hentered⟩ := (tells_start .all v q s).runFaulty faults
  rw [hentered.scenarios_eq]
  exact hwent.passed_iff hs hpassed

theorem keyed_start (q : Question) (hs : s.scenarios.Keyed) (v : Verifier)
    (faults : Nat → Option Fault) :
    (runFaulty .all faults (v.start q) s).2.scenarios.Keyed := by
  obtain ⟨result, u, hwent, hentered⟩ := (tells_start .all v q s).runFaulty faults
  rw [hentered.scenarios_eq]
  exact hwent.keyed hs

theorem passed_finish_iff (hs : s.scenarios.Keyed)
    (hpassed : s.scenarios.Passed q.site.scenario.key q.site.step data) (timeout : Nat)
    (how : Wakeup) (faults : Nat → Option Fault) :
    (runFaulty .all faults (finish q timeout how) s).2.scenarios.Passed
        q.site.scenario.key q.site.step data
      ↔ ¬ q.Overwrites data s (outcomes .all faults (finish q timeout how) s) := by
  have h := (tells_finish .all q timeout how s).runFaulty faults
  split at h
  · exact h.passed_iff hs hpassed
  · obtain ⟨hl, -, ht⟩ := h
    rw [hl, ht]
    exact iff_of_true hpassed fun ho => nomatch ho.blind

/-- **How a passed step is undone.** Let a step have passed with `data`, and let any of the calls of
a verification of it fail, for any order and type and whatever records there are. The step has still
passed with `data` afterwards unless the verification overwrites it, and in that case it has not.
The same is true of the first half of a verification that waits. If that half keeps the step, then
the whole keeps it unless its second half overwrites it. -/
theorem passed_kept_iff (hs : s.scenarios.Keyed)
    (hpassed : s.scenarios.Passed q.site.scenario.key q.site.step data) :
    (∀ faults, (runFaulty .all faults (verify q) s).2.scenarios.Passed
          q.site.scenario.key q.site.step data
        ↔ ¬ q.Overwrites data s (outcomes .all faults (verify q) s))
    ∧ ∀ (v : Verifier) faults, let first := runFaulty .all faults (v.start q) s
      (first.2.scenarios.Passed q.site.scenario.key q.site.step data
        ↔ ¬ q.Overwrites data s (outcomes .all faults (v.start q) s))
      ∧ (first.2.scenarios.Passed q.site.scenario.key q.site.step data →
        ∀ (meanwhile : State → State), (∀ t, (meanwhile t).scenarios = t.scenarios) →
        ∀ timeout how faults', (v.whole q timeout faults meanwhile how faults' s).scenarios.Passed
            q.site.scenario.key q.site.step data
          ↔ (∃ result, first.1 = .finished result) ∨ ¬ q.Overwrites data (meanwhile first.2)
            (outcomes .all faults' (finish q timeout how) (meanwhile first.2))) := by
  refine ⟨fun faults => ?verify, fun v faults => ⟨?start, ?whole⟩⟩
  case verify => exact ((tells_verify .all q s).runFaulty faults).passed_iff hs hpassed
  case start => exact passed_start_iff hs hpassed v faults
  case whole =>
    intro hkept meanwhile hmeanwhile timeout how faults'
    have hkeyed := keyed_start q hs v faults
    unfold whole
    dsimp only
    cases hstage : (runFaulty .all faults (v.start q) s).1 with
    | finished result => exact iff_of_true hkept (.inl ⟨result, rfl⟩)
    | waiting mailbox receiver =>
        rw [← hmeanwhile] at hkept hkeyed
        refine (passed_finish_iff hkeyed hkept timeout how faults').trans ⟨.inr, ?_⟩
        rintro (⟨result, hresult⟩ | hnot)
        · cases hresult
        · exact hnot

/-! ## A reset of the connection -/

def shipping : Scenario := ⟨"Shipping", "", none⟩

def shipped : Capture := .ofList [("orderId", "ORD1")]

/-- A step that has passed. Its event is not among the records, as in a store that was emptied
since. -/
def passedOnce : State :=
  (State.initial fun _ => ⟨5000, 1, fun _ => 0⟩).marked shipping "ship" .success (some shipped)

def shipAgain : Question := ⟨⟨shipping, "shipping.feature", "7", "ship"⟩, "ORD1", "SHIPPED"⟩

/-- Faults in which the requests with these numbers fail, and no others. -/
def resets (numbers : List Nat) (n : Nat) : Option Fault :=
  if n ∈ numbers then some ⟨"connection reset"⟩ else none

theorem passed_passedOnce : passedOnce.scenarios.Passed shipping.key "ship" (some shipped) :=
  (State.passed_marked_self_iff ScenarioStore.keyed_empty).mpr ⟨rfl, rfl⟩

/-- The read fails, and so does the call by which the step would be marked. After the wait the step
is seen to have passed, and only what it captured cannot be read. -/
theorem resets_keep :
    (runFaulty .all (resets [0, 5]) (verify shipAgain) passedOnce).2.scenarios.Passed
      shipping.key "ship" (some shipped)
    ∧ (Verifier.whole ⟨some 0⟩ shipAgain 20 (resets [0, 5]) id .resolved (resets [2])
      passedOnce).scenarios.Passed shipping.key "ship" (some shipped) := by
  obtain ⟨hverify, hwaits⟩ := passed_kept_iff (q := shipAgain) (s := passedOnce)
    (ScenarioStore.keyed_empty.save _) passed_passedOnce
  obtain ⟨hstart, hwhole⟩ := hwaits ⟨some 0⟩ (resets [0, 5])
  have houtcomes : outcomes .all (resets [0, 5]) (verify shipAgain) passedOnce
      = [false, true, true, false] := by rfl
  have hfirst : outcomes .all (resets [0, 5]) (Verifier.start ⟨some 0⟩ shipAgain) passedOnce
      = [false, true, true, false] := by rfl
  have hsecond : outcomes .all (resets [2]) (finish shipAgain 20 .resolved)
      (id (runFaulty .all (resets [0, 5]) (Verifier.start ⟨some 0⟩ shipAgain) passedOnce).2)
      = [true, false] := by rfl
  have hkept := hstart.mpr fun ho => by cases (hfirst ▸ ho).answered
  refine ⟨(hverify (resets [0, 5])).mpr fun ho => ?_,
    (hwhole hkept id (fun _ => rfl) 20 .resolved (resets [2])).mpr (.inr fun ho => ?_)⟩
  · cases (houtcomes ▸ ho).answered
  · cases (hsecond ▸ ho).blind

/-- The read fails, and nothing else: the step that has passed is marked as pending. -/
theorem reset_undoes :
    passedOnce.scenarios.Passed shipAgain.site.scenario.key shipAgain.site.step (some shipped)
    ∧ ∀ data, ¬ (runFaulty .all (resets [0]) (verify shipAgain) passedOnce).2.scenarios.Passed
      shipAgain.site.scenario.key shipAgain.site.step data := by
  refine ⟨passed_passedOnce, fun data hpassed => ?_⟩
  have hknows : (runFaulty .all (resets [0]) (verify shipAgain) passedOnce).2.knowsPassed shipAgain
      = false := by rfl
  cases hknows.symm.trans (State.knowsPassed_of_passed hpassed)

end Verifier

end Rendezvous
