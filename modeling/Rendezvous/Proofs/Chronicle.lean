import Rendezvous.Proofs.Recording

/-!
# Progress follows its history

Marks, statuses of scenarios and clearings come one after the other, at any time, and any of their
calls may fail. A change takes effect if all its calls are answered, and `chronicle` lists those
that did. What is known can be read off that list alone: the last mark of a step since its scenario
was cleared says how the step stands and, with the successes right before it, what it captured; a
change that takes no effect leaves no trace (`progress_follows_history`).
-/

namespace Rendezvous.Progress

open Proc

/-! ## Changes and the calls that bring them -/

/-- A change of what is known about scenarios, as a caller asks for it. Each is one procedure on the
store, with a read and a write of its own or a deletion. -/
inductive Change
  | mark (sc : Scenario) (step : String) (status : StepStatus) (data : Option Capture)
  | setStatus (sc : Scenario) (status : ScenarioStatus)
  | clear (sc : Scenario)
  | clearAll

namespace Change

def proc : Change → Proc Unit
  | .mark sc step status data => Progress.mark sc step status data
  | .setStatus sc status => Progress.setStatus sc status
  | .clear sc => do let _ ← Progress.clear sc
  | .clearAll => do let _ ← Progress.clearAll

def made : Change → State → State
  | .mark sc step status data, s => s.marked sc step status data
  | .setStatus sc status, s => s.recorded sc fun st time => st.withStatus status time
  | .clear sc, s => { s with scenarios := s.scenarios.delete sc.key }
  | .clearAll, s => { s with scenarios := .empty }

theorem tells_proc (x : Exposure) (c : Change) (s : State) :
    Tells x (fun l _ => Attempt x s (c.made s) l) c.proc s := by
  cases c with
  | mark sc step status data => exact tells_mark x sc step status data s
  | setStatus sc status => exact tells_setStatus x sc status s
  | clear sc => exact tells_bind ((tells_clear x sc s).mono fun l _ t h => by simpa [made] using h)
  | clearAll => exact tells_bind ((tells_clearAll x s).mono fun l _ t h => by simpa [made] using h)

/-- The change forgets what is known under `key`; nothing before it counts any longer. -/
def clears (key : String) : Change → Bool
  | .clear sc => key = sc.key
  | .clearAll => true
  | _ => false

/-- How the change marks the step, and with which data, if it does at all. -/
def marks? (key step : String) : Change → Option (StepStatus × Option Capture)
  | .mark sc p status data => if key = sc.key ∧ step = p then some (status, data) else none
  | _ => none

/-- The status that the change gives to the scenario, if it gives any. -/
def sets? (key : String) : Change → Option ScenarioStatus
  | .setStatus sc status => if key = sc.key then some status else none
  | _ => none

end Change

/-- A change that is asked for, some time after what came before it, with the faults that befall its
calls. -/
structure Call where
  ms : Nat
  change : Change
  faults : Nat → Option Fault

namespace Call

def carry (c : Call) (s : State) : State :=
  (runFaulty .all c.faults c.change.proc (s.wait c.ms)).2

/-- Every call on the store is answered, so the change takes effect. One that is not effective
leaves things as they were. -/
def effective (c : Call) (s : State) : Bool :=
  (outcomes .all c.faults c.change.proc (s.wait c.ms)).all id

theorem carry_eq (c : Call) (s : State) :
    c.carry s = if c.effective s then c.change.made (s.wait c.ms) else s.wait c.ms := by
  have h := (c.change.tells_proc .all (s.wait c.ms)).runFaulty c.faults
  unfold carry effective
  generalize outcomes .all c.faults c.change.proc (s.wait c.ms) = l at h ⊢
  generalize (runFaulty .all c.faults c.change.proc (s.wait c.ms)).2 = t at h ⊢
  cases h with
  | made hl => rw [if_pos hl]
  | failed _ hl => rw [hl]; rfl

end Call

def run (s : State) (calls : List Call) : State := calls.foldl (fun s c => c.carry s) s

/-- The changes that took effect, the last one first, after those of `past`. Changes that failed
leave no trace in it. -/
def chronicle (past : List Change) : State → List Call → List Change
  | _, [] => past
  | s, c :: cs => chronicle (if c.effective s then c.change :: past else past) (c.carry s) cs

/-! ## What a history says -/

/-- The changes since `key` was last cleared, or all of them if it never was. -/
def since (key : String) (past : List Change) : List Change := past.takeWhile (!·.clears key)

/-- The marks of a step since its scenario was last cleared, the last one first. -/
def marks (key step : String) (past : List Change) : List (StepStatus × Option Capture) :=
  (since key past).filterMap (·.marks? key step)

/-- What the marks leave captured: of the successes in a row that come last, the last data that
came. A failure in between drops what came before it. -/
def captures (marks : List (StepStatus × Option Capture)) : Option Capture :=
  (marks.takeWhile (·.1 = .success)).findSome? (·.2)

theorem since_cons (key : String) (c : Change) (past : List Change) :
    since key (c :: past) = if c.clears key then [] else c :: since key past := by
  cases h : c.clears key <;> simp [since, h]

theorem marks_cons (key step : String) (c : Change) (past : List Change) :
    marks key step (c :: past) = if c.clears key then []
      else (c.marks? key step).toList ++ marks key step past := by
  rw [marks, since_cons]
  split
  · rfl
  · cases h : c.marks? key step <;> simp [marks, h]

theorem captures_cons (status : StepStatus) (data : Option Capture)
    (marks : List (StepStatus × Option Capture)) : captures ((status, data) :: marks)
      = if status = .success then data.or (captures marks) else none := by
  by_cases h : status = .success
  · cases data <;> simp [captures, h]
  · simp [captures, h]

/-- What is captured shows a success: where there is data, the last mark was one. -/
theorem success_of_captures {marks : List (StepStatus × Option Capture)} {d : Capture}
    (h : captures marks = some d) : ∃ data, marks.head? = some (.success, data) := by
  cases marks with
  | nil => cases h
  | cons m marks =>
      obtain ⟨status, data⟩ := m
      rw [captures_cons] at h
      split at h
      · exact ⟨data, by simp [*]⟩
      · cases h

/-- What is kept is what the history says: for each step its last mark and what the last successes
captured, and for each scenario its last status. -/
structure Reflects (past : List Change) (s : ScenarioStore) : Prop where
  keyed : s.Keyed
  steps : ∀ key step, (s.find? key).bind (·.stepStatus.get? step)
    = (marks key step past).head?.map (·.1)
  captured : ∀ key step, (s.find? key).bind (·.captured.get? step)
    = captures (marks key step past)
  statuses : ∀ key, (s.find? key).bind (·.status) = (since key past).findSome? (·.sets? key)

variable {past : List Change} {s : ScenarioStore}

theorem reflects_empty : Reflects [] .empty :=
  ⟨ScenarioStore.keyed_empty, fun _ _ => rfl, fun _ _ => rfl, fun _ => rfl⟩

/-- What is read of a scenario after an update, if a new scenario has nothing of the kind. -/
theorem bind_find?_update {β : Type} {read : ScenarioState → Option β} (h : s.Keyed)
    (hnew : ∀ sc now, read (.new sc now) = none) {sc : Scenario}
    {change : ScenarioState → Instant → ScenarioState} {now : Instant} {f : Option β → Option β}
    (hkey : ∀ st, (change st now).key = st.key) (hread : ∀ st, read (change st now) = f (read st))
    (key : String) : ((s.update sc change now).find? key).bind read
      = if key = sc.key then f ((s.find? key).bind read) else (s.find? key).bind read := by
  rw [ScenarioStore.find?_update h hkey]
  split
  · subst key
    rw [Option.bind_some, hread, ScenarioStore.known]
    cases s.find? sc.key with
    | none => exact congrArg f (hnew sc now)
    | some st => rfl
  · rfl

theorem bind_find?_delete {β : Type} (read : ScenarioState → Option β) (k key : String) :
    ((s.delete k).find? key).bind read = if key = k then none else (s.find? key).bind read := by
  rw [ScenarioStore.find?_delete]
  split <;> rfl

theorem Reflects.mark (h : Reflects past s) (sc : Scenario) (step : String) (status : StepStatus)
    (data : Option Capture) (now : Instant) : Reflects (.mark sc step status data :: past)
      (s.update sc (fun st time => st.mark step status data time) now) where
  keyed := h.keyed.save _
  steps key p := by
    rw [bind_find?_update h.keyed (fun _ _ => rfl) (fun _ => rfl)
      (f := fun found => if p = step then some status else found)
      (fun st => st.get?_stepStatus_mark ..), h.steps, marks_cons]
    by_cases hkey : key = sc.key <;> by_cases hp : p = step <;>
      simp [Change.clears, Change.marks?, hkey, hp]
  captured key p := by
    rw [bind_find?_update h.keyed (fun _ _ => rfl) (fun _ => rfl)
      (f := fun found => if p = step then if status = .success then data.or found else none
        else found) (fun st => st.get?_captured_mark ..), h.captured, marks_cons]
    by_cases hkey : key = sc.key <;> by_cases hp : p = step <;>
      simp [Change.clears, Change.marks?, hkey, hp, captures_cons]
  statuses key := by
    rw [bind_find?_update h.keyed (fun _ _ => rfl) (fun _ => rfl) (f := id) (fun _ => rfl),
      h.statuses, since_cons]
    simp [Change.clears, Change.sets?]

theorem Reflects.setStatus (h : Reflects past s) (sc : Scenario) (status : ScenarioStatus)
    (now : Instant) : Reflects (.setStatus sc status :: past)
      (s.update sc (fun st time => st.withStatus status time) now) where
  keyed := h.keyed.save _
  steps key p := by
    rw [bind_find?_update h.keyed (fun _ _ => rfl) (fun _ => rfl) (f := id) (fun _ => rfl),
      h.steps, marks_cons]
    simp [Change.clears, Change.marks?]
  captured key p := by
    rw [bind_find?_update h.keyed (fun _ _ => rfl) (fun _ => rfl) (f := id) (fun _ => rfl),
      h.captured, marks_cons]
    simp [Change.clears, Change.marks?]
  statuses key := by
    rw [bind_find?_update h.keyed (fun _ _ => rfl) (fun _ => rfl) (f := fun _ => some status)
      (fun _ => rfl), h.statuses, since_cons]
    by_cases hkey : key = sc.key <;> simp [Change.clears, Change.sets?, hkey]

theorem Reflects.clear (h : Reflects past s) (sc : Scenario) :
    Reflects (.clear sc :: past) (s.delete sc.key) where
  keyed := h.keyed.delete _
  steps key p := by
    rw [bind_find?_delete, h.steps, marks_cons]
    by_cases hkey : key = sc.key <;> simp [Change.clears, Change.marks?, hkey]
  captured key p := by
    rw [bind_find?_delete, h.captured, marks_cons]
    by_cases hkey : key = sc.key <;> simp [Change.clears, Change.marks?, hkey, captures]
  statuses key := by
    rw [bind_find?_delete, h.statuses, since_cons]
    by_cases hkey : key = sc.key <;> simp [Change.clears, Change.sets?, hkey]

theorem Reflects.made (c : Change) {s : State} (h : Reflects past s.scenarios) :
    Reflects (c :: past) (c.made s).scenarios := by
  cases c with
  | mark sc step status data => exact h.mark sc step status data s.now
  | setStatus sc status => exact h.setStatus sc status s.now
  | clear sc => exact h.clear sc
  | clearAll => exact ⟨ScenarioStore.keyed_empty, fun _ _ => rfl, fun _ _ => rfl, fun _ => rfl⟩

theorem Reflects.run : ∀ (calls : List Call) {past : List Change} {s : State},
    Reflects past s.scenarios → Reflects (chronicle past s calls) (run s calls).scenarios
  | [], _, _, h => h
  | c :: calls, past, s, h => by
      refine Reflects.run (s := c.carry s) calls ?_
      rw [c.carry_eq]
      split
      · exact Reflects.made c.change (s := s.wait c.ms) h
      · exact h

/-- **Progress follows its history.** Whatever changes are asked for, and whichever of their calls
fail, what is known is what those changes that took effect say. A step has succeeded if its last
mark since its scenario was cleared is a success; it has the data that the successes since its last
other mark brought last; a scenario has the status it was given last; and data is kept for
successful steps only. A change that takes no effect leaves everything as it was. -/
theorem progress_follows_history (retention : MailboxId → Retention) (calls : List Call) :
    let s := run (.initial retention) calls
    let past := chronicle [] (.initial retention) calls
    (∀ sc step, (Proc.run State.answer (succeeded sc step) s).1 = true
        ↔ ∃ data, (marks sc.key step past).head? = some (.success, data))
    ∧ (∀ sc step, (Proc.run State.answer (data sc step) s).1
        = (captures (marks sc.key step past)).getD .empty)
    ∧ (∀ key, (s.scenarios.find? key).bind (·.status) = (since key past).findSome? (·.sets? key))
    ∧ (∀ key st step d, s.scenarios.find? key = some st → st.captured.get? step = some d →
        st.succeeded step = true)
    ∧ ∀ c : Call, c.effective s = false → c.carry s = s.wait c.ms := by
  intro s past
  have h : Reflects past s.scenarios := Reflects.run calls reflects_empty
  refine ⟨?succeeded, ?data, h.statuses, ?successes, ?failed⟩
  case succeeded =>
    intro sc step
    refine (ScenarioState.any_succeeded (s.scenarios.find? sc.key) step).trans ?_
    rw [h.steps, Option.map_eq_some_iff]
    constructor
    · rintro ⟨⟨status, data⟩, hhead, rfl⟩
      exact ⟨data, hhead⟩
    · rintro ⟨data, hhead⟩
      exact ⟨_, hhead, rfl⟩
  case data =>
    intro sc step
    exact congrArg (·.getD .empty) (h.captured sc.key step)
  case successes =>
    intro key st step d hfind hd
    have hstep := h.steps key step
    have hcaptured := h.captured key step
    rw [hfind, Option.bind_some] at hstep hcaptured
    obtain ⟨data, hhead⟩ := success_of_captures (hcaptured.symm.trans hd)
    rw [hhead] at hstep
    exact decide_eq_true hstep
  case failed =>
    intro c hc
    rw [c.carry_eq, hc]
    rfl

/-- A step succeeds and captures something, a mark of its failure fails to be saved, and it succeeds
once more, with nothing to capture. -/
def retried (sc : Scenario) (d : Capture) : List Call :=
  [⟨0, .mark sc "ship" .success (some d), fun _ => none⟩,
    ⟨1, .mark sc "ship" .failed none, fun n => if n = 2 then some ⟨"connection reset"⟩ else none⟩,
    ⟨1, .mark sc "ship" .success none, fun _ => none⟩]

theorem retried_keeps_capture :
    let sc : Scenario := ⟨"Shipping", "", none⟩
    let d : Capture := .ofList [("orderId", "ORD1")]
    let s := run (.initial fun _ => ⟨5000, 1, fun _ => 0⟩) (retried sc d)
    let unread : Call := ⟨1, .clear sc, fun _ => some ⟨"connection reset"⟩⟩
    (Proc.run State.answer (succeeded sc "ship") s).1 = true
    ∧ (Proc.run State.answer (data sc "ship") s).1 = d
    ∧ unread.effective s = false ∧ unread.carry s = s.wait 1 := by
  intro sc d s unread
  obtain ⟨hsucceeded, hdata, -, -, hfailed⟩ :=
    progress_follows_history (fun _ => ⟨5000, 1, fun _ => 0⟩) (retried sc d)
  have hunread : unread.effective s = false := by rfl
  refine ⟨(hsucceeded sc "ship").mpr ⟨none, by rfl⟩, (hdata sc "ship").trans (by rfl), hunread,
    hfailed unread hunread⟩

end Rendezvous.Progress
