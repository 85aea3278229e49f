import Rendezvous.Proofs.Renewing
import Rendezvous.Proofs.Undoing

/-!
# What the answer to a verification says

A verification asks two stores, and some failures of theirs it hands on while others pass for "not
known" or are only reported. Its answer can be relied on all the same (`verify_answers`): each of
the four answers says what the stores held and what has become of the records, whichever calls have
failed. A wait that is left behind a second time is the one that was there, paused once more
(`Record.Repaused`).
-/

namespace Rendezvous

open Proc

/-! ## A wait that is paused again -/

namespace Record

/-- The record `r` is what `old` is once the wait of `q` was paused on it at `now`: it waits for the
type of `q` and counts one pause more, and what it shows of an event is as before. -/
structure Repaused (q : Question) (now : Instant) (old r : Record) : Prop where
  paused : r.paused = true
  awaited : r.eventType = some q.eventType
  retries : r.retries.toInt = old.retries.toInt + 1
  firstPaused : r.firstPaused = some (old.firstPaused.getD now)
  lastPaused : r.lastPaused = some now
  ready : r.ready = old.ready
  observedAt : r.observedAt = old.observedAt
  payload : r.payload = old.payload
  status : r.status = old.status
  recordedAt : r.recordedAt = old.recordedAt
  key : r.key = old.key
  order : r.order = if old.order = "" then q.order else old.order

variable {r : Record}

/-- The count of pauses goes up where it does not overflow. -/
theorem toInt_retries_pause (h : r.retries < Int32.maxValue) (context : Record) (now : Instant) :
    (r.pause context now).retries.toInt = r.retries.toInt + 1 := by
  have hlow := r.retries.le_toInt
  have hhigh : r.retries.toInt < 2147483647 := Int32.lt_iff_toInt_lt.mp h
  change (r.retries + 1).toInt = _
  rw [Int32.toInt_add, Int32.toInt_one]
  exact Int.bmod_eq_of_le (by omega) (by omega)

theorem repaused_pause (q : Question) (h : r.retries < Int32.maxValue) (now : Instant) :
    r.Repaused q now (r.pause (Verifier.placeholder q now) now) where
  paused := rfl
  awaited := rfl
  retries := toInt_retries_pause h _ now
  firstPaused := by
    change (r.firstPaused <|> some now) = _
    cases r.firstPaused <;> rfl
  lastPaused := rfl
  ready := rfl
  observedAt := rfl
  payload := rfl
  status := rfl
  recordedAt := rfl
  key := rfl
  order := rfl

/-- A wait that is new has been paused once. -/
theorem pause_fresh_placeholder (q : Question) (now : Instant) :
    (Verifier.placeholder q now).fresh.pause (Verifier.placeholder q now) now
      = { Verifier.placeholder q now with
          retries := 1, firstPaused := some now, lastPaused := some now } := by
  have horder : (if q.order = "" then q.order else q.order) = q.order := ite_self _
  change { (Verifier.placeholder q now) with
    order := if q.order = "" then q.order else q.order
    retries := 0 + 1, firstPaused := some now, lastPaused := some now } = _
  rw [horder]
  rfl

end Record

/-- The event of `q` is not there, and its wait is left behind: it is new, or paused once more.
Records under other keys are not touched. -/
structure Question.LeftWaiting (q : Question) (s t : State) : Prop where
  unseen : ∀ r, ¬ s.events.Observes q.order q.eventType r
  anew : s.events.find? q.key = none → t.events.find? q.key = some
    { Verifier.placeholder q s.now with
      retries := 1, firstPaused := some s.now, lastPaused := some s.now }
  again : ∀ old, s.events.find? q.key = some old →
    ∃ r, t.events.find? q.key = some r ∧ old.Repaused q s.now r
  elsewhere : ∀ key, key ≠ q.key → t.events.find? key = s.events.find? key

namespace Verifier

variable {x : Exposure} {q : Question} {s t : State} {l : List Bool} {v : Except Fault Verification}

theorem leftWaiting (hnone : s.events.latest? q.order q.eventType = none)
    (hcount : ∀ r, s.events.find? q.key = some r → r.retries < Int32.maxValue)
    (ht : t.events = s.events.markPaused (placeholder q s.now) s.now) : q.LeftWaiting s t := by
  have hself : t.events.find? q.key
      = some (((s.events.find? q.key).getD (placeholder q s.now).fresh).pause
          (placeholder q s.now) s.now) := by
    rw [ht, RecordStore.find?_markPaused]
    exact if_pos rfl
  refine ⟨fun r hr => ?_, fun habsent => ?_, fun old hold => ?_, fun key hne => ?_⟩
  · obtain ⟨e, he⟩ := hr.latest?
    cases hnone.symm.trans he
  · rw [hself, habsent, Option.getD_none, Record.pause_fresh_placeholder]
  · rw [hold] at hself
    exact ⟨_, hself, old.repaused_pause q (hcount old hold) s.now⟩
  · rw [ht, RecordStore.find?_markPaused]
    exact if_neg hne

/-- What the answer to a verification says of the state `s` before it and the state `t` after. An
error says that both stores are as they were, and each of the three answers says what there was to
find. -/
def Answers (q : Question) (s t : State) : Except Fault Verification → Prop
  | .error _ => t.events = s.events ∧ t.scenarios = s.scenarios
  | .ok (.ready e) => s.events.Newest q.order q.eventType e ∧ t.events = s.events
  | .ok (.skipped _) =>
      (s.scenarios.find? q.site.scenario.key).bind (·.stepStatus.get? q.site.step) = some .success
        ∧ t.events = s.events ∧ t.scenarios = s.scenarios
  | .ok (.notReady key) => key = q.site.waitKey q.order q.eventType ∧ q.LeftWaiting s t

/-- Once the records have been asked, progress is only recorded, and that touches no record. So the
answer says what the records said when they were asked. -/
theorem Asked.answers (h : Asked x q s l v t)
    (hcount : ∀ r, s.events.find? q.key = some r → r.retries < Int32.maxValue) :
    Answers q s t v := by
  cases h with
  | lookupFailed | pauseFailed => exact ⟨rfl, rfl⟩
  | ready hlatest hmark =>
      refine ⟨RecordStore.newest_of_latest? hlatest, ?_⟩
      cases hmark <;> rfl
  | notReady hnone hmark =>
      refine ⟨rfl, leftWaiting hnone hcount ?_⟩
      cases hmark <;> rfl

theorem Went.answers (h : Went x q s l v t)
    (hcount : ∀ r, s.events.find? q.key = some r → r.retries < Int32.maxValue) :
    Answers q s t v := by
  cases h with
  | skipped hpassed | skippedBlind hpassed =>
      exact ⟨(ScenarioState.any_succeeded _ _).mp hpassed, rfl, rfl⟩
  | asked _ h | askedBlind _ h => exact h.answers hcount

/-- Whatever fails, the answer to a verification can be relied on. -/
theorem verify_answers (q : Question) (s : State)
    (hcount : ∀ r, s.events.find? q.key = some r → r.retries < Int32.maxValue)
    (faults : Nat → Option Fault) :
    Answers q s (runFaulty .all faults (verify q) s).2 (runFaulty .all faults (verify q) s).1 :=
  ((tells_verify .all q s).runFaulty faults).answers hcount

/-- The step has passed, which the verification fails to read, and it fails to mark the step. The
wait that it has left behind before is paused a second time. -/
theorem blind_answer_repauses :
    ∃ r, (runFaulty .all (resets [0, 5]) (verify shipAgain)
        (passedOnce.waiting shipAgain)).2.events.find? shipAgain.key = some r
      ∧ r.paused = true ∧ r.retries.toInt = 2 := by
  obtain ⟨old, hold, hretries⟩ : ∃ old, (passedOnce.waiting shipAgain).events.find? shipAgain.key
      = some old ∧ old.retries.toInt = 1 := ⟨_, rfl, by decide⟩
  have hanswers := verify_answers shipAgain (passedOnce.waiting shipAgain) (fun r hr => by
    obtain rfl := Option.some.inj (hold.symm.trans hr)
    exact Int32.lt_iff_toInt_lt.mpr (by rw [hretries]; decide)) (resets [0, 5])
  have hanswer : (runFaulty .all (resets [0, 5]) (verify shipAgain)
      (passedOnce.waiting shipAgain)).1 = .ok (.notReady shipAgain.key) := by rfl
  rw [hanswer] at hanswers
  obtain ⟨r, hr, hrepaused⟩ := hanswers.2.again old hold
  refine ⟨r, hr, hrepaused.paused, ?_⟩
  rw [hrepaused.retries, hretries]
  rfl

end Verifier

end Rendezvous
