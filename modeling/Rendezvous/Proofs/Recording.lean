import Rendezvous.Proofs.Outcomes
import Rendezvous.Verification

/-!
# How progress is recorded

The specifications of everything that reads or changes what is known about scenarios, with any of
its calls failing. A change is made when all its calls are answered, and otherwise nothing happens
(`Progress.Attempt`). What a verification does to the progress of its step is said by
`Verifier.Went`: it goes by what it could read, and it writes at most once. One that waits does so
in each of its halves, and does nothing else to it (`Verifier.Entered`).
-/

namespace Rendezvous

open Proc

/-! ## What is kept about scenarios -/

namespace ScenarioState

variable (st : ScenarioState) (step : String) (status : StepStatus) (data : Option Capture)
  (now : Instant)

theorem get?_stepStatus_mark (p : String) : (st.mark step status data now).stepStatus.get? p
    = if p = step then some status else st.stepStatus.get? p := Table.get?_insert ..

/-- A mark changes the data of its step only: a success brings data or keeps it, and all else
drops it. -/
theorem get?_captured_mark (p : String) : (st.mark step status data now).captured.get? p
    = if p = step then if status = .success then data.or (st.captured.get? p) else none
      else st.captured.get? p := by
  have herase : (st.captured.erase step).get? p
      = if p = step then none else st.captured.get? p := by
    split
    · subst p; exact Table.get?_erase_self ..
    · exact Table.get?_erase_ne _ ‹_›
  cases status with
  | success =>
      cases data with
      | none => simp [mark]
      | some d => simp [mark, Table.get?_insert]
  | _ => exact herase

/-- What is found shows a success of the step. -/
theorem any_succeeded (found : Option ScenarioState) (step : String) :
    found.any (·.succeeded step) = true ↔ found.bind (·.stepStatus.get? step) = some .success := by
  cases found with
  | none => exact iff_of_false Bool.false_ne_true nofun
  | some st => exact decide_eq_true_iff

end ScenarioState

namespace ScenarioStore

/-- Every state is kept under the key it carries. No save or deletion changes that. -/
def Keyed (s : ScenarioStore) : Prop := ∀ key st, s.find? key = some st → st.key = key

/-- The step is recorded as a success under `key`, with the data it captured, if any. A verification
skips it as long as this is so. -/
def Passed (s : ScenarioStore) (key step : String) (data : Option Capture) : Prop :=
  ∃ st, s.find? key = some st ∧ st.succeeded step = true ∧ st.captured.get? step = data

/-- What is kept about the scenario, or what a new one starts with at that time. -/
def known (s : ScenarioStore) (sc : Scenario) (now : Instant) : ScenarioState :=
  (s.find? sc.key).getD (.new sc now)

/-- Replaces what is kept about the scenario by what `change` makes of it, as a change does when
nothing fails. -/
def update (s : ScenarioStore) (sc : Scenario) (change : ScenarioState → Instant → ScenarioState)
    (now : Instant) : ScenarioStore := s.save (change (s.known sc now) now)

theorem keyed_empty : empty.Keyed := fun _ _ h => nomatch h

variable {s : ScenarioStore}

theorem Keyed.known (h : s.Keyed) (sc : Scenario) (now : Instant) :
    (s.known sc now).key = sc.key := by
  unfold ScenarioStore.known
  cases hf : s.find? sc.key with
  | none => rfl
  | some st => exact h _ st hf

theorem Keyed.save (h : s.Keyed) (st : ScenarioState) : (s.save st).Keyed := by
  intro key st' hst
  rw [find?_save] at hst
  split at hst
  · subst key
    exact congrArg ScenarioState.key (Option.some.inj hst).symm
  · exact h key st' hst

theorem Keyed.delete (h : s.Keyed) (k : String) : (s.delete k).Keyed := by
  intro key st hst
  rw [find?_delete] at hst
  split at hst
  · cases hst
  · exact h key st hst

theorem find?_update (h : s.Keyed) {sc : Scenario}
    {change : ScenarioState → Instant → ScenarioState} {now : Instant}
    (hkey : ∀ st, (change st now).key = st.key) (key : String) :
    (s.update sc change now).find? key
      = if key = sc.key then some (change (s.known sc now) now) else s.find? key := by
  rw [ScenarioStore.update, find?_save, hkey, h.known]

variable {key step : String} {data : Option Capture}

/-- An update leaves a step as it is, if it is of another scenario or does not touch the step. A
state is saved whole, but what it was made of was read whole before. -/
theorem Passed.update (h : s.Passed key step data) (hs : s.Keyed) {sc : Scenario}
    {change : ScenarioState → Instant → ScenarioState} {now : Instant}
    (hkey : ∀ st, (change st now).key = st.key)
    (hkeep : key = sc.key → ∀ st, (change st now).stepStatus.get? step = st.stepStatus.get? step
      ∧ (change st now).captured.get? step = st.captured.get? step) :
    (s.update sc change now).Passed key step data := by
  obtain ⟨st, hst, hpassed, hdata⟩ := h
  rw [Passed, find?_update hs hkey]
  split
  · rename_i hsc
    obtain ⟨hstatus, hcaptured⟩ := hkeep hsc st
    subst hsc
    rw [ScenarioStore.known, hst]
    refine ⟨_, rfl, ?_, hcaptured.trans hdata⟩
    rw [ScenarioState.succeeded, Option.getD_some, hstatus]
    exact hpassed
  · exact ⟨st, hst, hpassed, hdata⟩

theorem Passed.save (h : s.Passed key step data) {st : ScenarioState} (hne : st.key ≠ key) :
    (s.save st).Passed key step data := by
  rw [Passed, find?_save, if_neg (Ne.symm hne)]
  exact h

theorem Passed.delete (h : s.Passed key step data) {k : String} (hne : k ≠ key) :
    (s.delete k).Passed key step data := by
  rw [Passed, find?_delete, if_neg (Ne.symm hne)]
  exact h

end ScenarioStore

/-! ## Changes -/

/-- The state once what is known about the scenario has changed. -/
def State.recorded (s : State) (sc : Scenario) (change : ScenarioState → Instant → ScenarioState) :
    State := { s with scenarios := s.scenarios.update sc change s.now }

/-- The state once the step has been marked. -/
def State.marked (s : State) (sc : Scenario) (step : String) (status : StepStatus)
    (data : Option Capture) : State :=
  s.recorded sc fun st time => st.mark step status data time

namespace State

variable {s : State} {key step : String} {data : Option Capture}

/-- A mark of another step, or of another scenario, leaves the step as it is. -/
theorem passed_marked (h : s.scenarios.Passed key step data) (hs : s.scenarios.Keyed)
    {sc : Scenario} {p : String} (hne : ¬ (key = sc.key ∧ step = p)) (status : StepStatus)
    (d : Option Capture) : (s.marked sc p status d).scenarios.Passed key step data := by
  refine h.update hs (fun _ => rfl) fun hkey st => ?_
  have hp : step ≠ p := fun hp => hne ⟨hkey, hp⟩
  rw [ScenarioState.get?_stepStatus_mark, ScenarioState.get?_captured_mark, if_neg hp, if_neg hp]
  exact ⟨rfl, rfl⟩

/-- After a mark, the step is as the mark says; a success without data keeps what was captured. -/
theorem passed_marked_self_iff (hs : s.scenarios.Keyed) {sc : Scenario} {p : String}
    {status : StepStatus} {d : Option Capture} :
    (s.marked sc p status d).scenarios.Passed sc.key p data
      ↔ status = .success ∧ data = d.or ((s.scenarios.known sc s.now).captured.get? p) := by
  have hfind : (s.marked sc p status d).scenarios.find? sc.key
      = some ((s.scenarios.known sc s.now).mark p status d s.now) :=
    (ScenarioStore.find?_update hs (fun _ => rfl) sc.key).trans (if_pos rfl)
  rw [ScenarioStore.Passed, hfind]
  simp only [Option.some.injEq, exists_eq_left', ScenarioState.succeeded,
    ScenarioState.get?_stepStatus_mark, ScenarioState.get?_captured_mark, if_true,
    decide_eq_true_eq]
  constructor
  · rintro ⟨rfl, rfl⟩
    exact ⟨rfl, if_pos rfl⟩
  · rintro ⟨rfl, rfl⟩
    exact ⟨rfl, if_pos rfl⟩

end State

namespace Progress

/-- A change from `s` to `t`, given the outcomes of its calls: it is made when all of them are
answered, and else it is not. -/
inductive Attempt (x : Exposure) (s t : State) : List Bool → State → Prop
  | made {l} : l.all id = true → Attempt x s t l t
  | failed {l} : x.scenarios = true → l.all id = false → Attempt x s t l s

variable {x : Exposure}

theorem tells_update (x : Exposure) (sc : Scenario)
    (change : ScenarioState → Instant → ScenarioState) (s : State) :
    Tells x (fun l _ => Attempt x s (s.recorded sc change) l) (update sc change) s := by
  refine tells_scenarios ?_ fun hx f => .failed hx rfl
  refine tells_now (tells_scenarios ?_ fun hx f => .failed hx rfl)
  exact .made rfl

theorem tells_mark (x : Exposure) (sc : Scenario) (step : String) (status : StepStatus)
    (data : Option Capture) (s : State) :
    Tells x (fun l _ => Attempt x s (s.marked sc step status data) l)
      (mark sc step status data) s := by
  refine tells_bind ((tells_update x sc _ s).mono fun l result t h => ?_)
  cases result <;> simpa [State.marked] using h

theorem tells_setStatus (x : Exposure) (sc : Scenario) (status : ScenarioStatus) (s : State) :
    Tells x (fun l _ => Attempt x s
        (s.recorded sc fun st time => st.withStatus status time) l) (setStatus sc status) s := by
  refine tells_bind ((tells_update x sc _ s).mono fun l result t h => ?_)
  cases result with
  | ok st => simpa using h
  | error f => simpa using h

theorem tells_clear (x : Exposure) (sc : Scenario) (s : State) :
    Tells x (fun l _ => Attempt x s { s with scenarios := s.scenarios.delete sc.key } l)
      (clear sc) s :=
  tells_scenarios (.made rfl) fun hx _ => .failed hx rfl

theorem tells_clearAll (x : Exposure) (s : State) :
    Tells x (fun l _ => Attempt x s { s with scenarios := .empty } l) clearAll s :=
  tells_scenarios (.made rfl) fun hx _ => .failed hx rfl

/-! ## Reads -/

/-- A read of what is kept, given the outcome of its call: it finds that, or it fails and finds
nothing. -/
inductive Loaded (x : Exposure) (s : State) (key : String) :
    List Bool → Option ScenarioState → Prop
  | read : Loaded x s key [true] (s.scenarios.find? key)
  | unread : x.scenarios = true → Loaded x s key [false] none

theorem tells_load (x : Exposure) (sc : Scenario) (s : State) :
    Tells x (fun l found t => Loaded x s sc.key l found ∧ t = s) (load sc) s :=
  tells_scenarios ⟨.read, rfl⟩ fun hx _ => tells_note ⟨.unread hx, rfl⟩

theorem tells_succeeded (x : Exposure) (sc : Scenario) (step : String) (s : State) :
    Tells x (fun l passed t => (∃ found, Loaded x s sc.key l found
      ∧ passed = found.any (·.succeeded step)) ∧ t = s) (succeeded sc step) s := by
  refine tells_bind ((tells_load x sc s).mono fun l found t h => ?_)
  exact ⟨⟨found, by simpa using h.1, rfl⟩, h.2⟩

theorem tells_data (x : Exposure) (sc : Scenario) (step : String) (s : State) :
    Tells x (fun l captured t => (∃ found, Loaded x s sc.key l found
      ∧ captured = (found.bind (·.captured.get? step)).getD .empty) ∧ t = s) (data sc step) s := by
  refine tells_bind ((tells_load x sc s).mono fun l found t h => ?_)
  exact ⟨⟨found, by simpa using h.1, rfl⟩, h.2⟩

end Progress

/-! ## Verifications -/

namespace State

/-- The state once the wait of `q` has been paused, which leaves the step to be marked. -/
def waiting (s : State) (q : Question) : State :=
  { s with events := s.events.markPaused (Verifier.placeholder q s.now) s.now }

/-- The state once the step of `q` has been marked with what came of its verification. -/
def concluded (s : State) (q : Question) (status : StepStatus) (data : Option Capture) : State :=
  s.marked q.site.scenario q.site.step status data

/-- The step of `q` is known as a success, so a verification that can read this skips it. -/
def knowsPassed (s : State) (q : Question) : Bool :=
  (s.scenarios.find? q.site.scenario.key).any (·.succeeded q.site.step)

theorem knowsPassed_of_passed {s : State} {q : Question} {data : Option Capture}
    (h : s.scenarios.Passed q.site.scenario.key q.site.step data) : s.knowsPassed q = true := by
  obtain ⟨st, hst, hpassed, -⟩ := h
  rw [knowsPassed, hst]
  exact hpassed

end State

namespace Verifier

open Progress (Attempt Loaded)

/-- The ways the look-up of an event can go, and what becomes of the step, each with the outcomes of
the calls that were made on it. -/
inductive Asked (x : Exposure) (q : Question) (s : State) :
    List Bool → Except Fault Verification → State → Prop
  | lookupFailed {f} : x.events = true → Asked x q s [false] (.error f) s
  | ready {e l t} : s.events.latest? q.order q.eventType = some e →
      Attempt x s (s.concluded q .success (some (.ofEvent e))) l t →
      Asked x q s (true :: l) (.ok (.ready e)) t
  | pauseFailed {f} : s.events.latest? q.order q.eventType = none → x.events = true →
      Asked x q s [true, false] (.error f) s
  | notReady {l t} : s.events.latest? q.order q.eventType = none →
      Attempt x (s.waiting q) ((s.waiting q).concluded q .pending none) l t →
      Asked x q s (true :: true :: l) (.ok (.notReady q.key)) t

/-- The ways a verification can go. It skips a step that it sees to have passed; a step that has
not, or of which it could not see it, it asks for the event. -/
inductive Went (x : Exposure) (q : Question) (s : State) :
    List Bool → Except Fault Verification → State → Prop
  | skipped : s.knowsPassed q = true → Went x q s [true, true]
      (.ok (.skipped (((s.scenarios.find? q.site.scenario.key).bind
        (·.captured.get? q.site.step)).getD .empty))) s
  | skippedBlind : s.knowsPassed q = true → x.scenarios = true →
      Went x q s [true, false] (.ok (.skipped .empty)) s
  | asked {l v t} : s.knowsPassed q = false → Asked x q s l v t → Went x q s (true :: l) v t
  | askedBlind {l v t} : x.scenarios = true → Asked x q s l v t → Went x q s (false :: l) v t

theorem tells_ask (x : Exposure) (q : Question) (s : State) : Tells x (Asked x q s) (ask q) s := by
  refine tells_events ?_ fun hx f => .lookupFailed hx
  cases hl : s.events.latest? q.order q.eventType with
  | some e =>
      simp only [State.answerEvents, hl]
      refine tells_bind ((Progress.tells_mark x _ _ _ _ s).mono fun l _ t h => ?_)
      simpa using Asked.ready hl h
  | none =>
      simp only [State.answerEvents, hl]
      refine tells_now (tells_events ?_ fun hx f => .pauseFailed hl hx)
      refine tells_bind ((Progress.tells_mark x _ _ _ _ (s.waiting q)).mono fun l _ t h => ?_)
      refine tells_note ?_
      simpa using Asked.notReady hl h

theorem tells_verify (x : Exposure) (q : Question) (s : State) :
    Tells x (Went x q s) (verify q) s := by
  refine tells_bind ((Progress.tells_succeeded x _ _ s).mono ?_)
  rintro l passed t ⟨⟨found, hfound, rfl⟩, rfl⟩
  cases hfound with
  | unread hx => exact (tells_ask x q t).mono fun l v u h => .askedBlind hx h
  | read =>
      cases hpassed : (t.scenarios.find? q.site.scenario.key).any (·.succeeded q.site.step) with
      | false => exact (tells_ask x q t).mono fun l v u h => .asked hpassed h
      | true =>
          refine tells_note (tells_bind ((Progress.tells_data x _ _ t).mono ?_))
          rintro l captured u ⟨⟨found, hfound, rfl⟩, rfl⟩
          cases hfound with
          | read => exact .skipped hpassed
          | unread hx => exact .skippedBlind hpassed hx

/-- What follows the first half of a verification that waits: it is over with a result, or it has a
receiver. No scenario is touched by it. -/
inductive Entered (result : Except Fault Verification) (s : State) : Stage → State → Prop
  | finished : Entered result s (.finished result) s
  | waiting {key mailbox receiver t} : result = .ok (.notReady key) →
      t.scenarios = s.scenarios → Entered result s (.waiting mailbox receiver) t

theorem Entered.scenarios_eq {result : Except Fault Verification} {s t : State} {stage : Stage}
    (h : Entered result s stage t) : t.scenarios = s.scenarios := by
  cases h with
  | finished => rfl
  | waiting _ ht => exact ht

theorem tells_start (x : Exposure) (v : Verifier) (q : Question) (s : State) :
    Tells x (fun l stage t => ∃ result u, Went x q s l result u ∧ Entered result u stage t)
      (v.start q) s := by
  refine tells_bind ((tells_verify x q s).mono fun l result u h => ?_)
  have hover : Tells x (fun m stage t => ∃ result u, Went x q s (l ++ m) result u
      ∧ Entered result u stage t) (.done (.finished result)) u :=
    ⟨result, u, by simpa using h, .finished⟩
  match result, v.mailbox with
  | .ok (.notReady key), some mailbox =>
      refine tells_bind ((tells_register mailbox key).mono ?_)
      rintro m receiver t ⟨rfl, rfl⟩
      exact ⟨_, u, by simpa using h, .waiting rfl rfl⟩
  | .ok (.notReady key), none | .ok (.ready e), _ | .ok (.skipped d), _ | .error f, _ => exact hover

theorem tells_finish (x : Exposure) (q : Question) (timeout : Nat) (how : Wakeup) (s : State) :
    Tells x (fun l result t => if how = .resolved then Went x q s l result t
      else l = [] ∧ result = .ok (.notReady q.key) ∧ t = s) (finish q timeout how) s := by
  cases how with
  | resolved => exact tells_verify x q s
  | closed => exact ⟨rfl, rfl, rfl⟩
  | timedOut => exact tells_note ⟨rfl, rfl, rfl⟩

end Verifier

end Rendezvous
