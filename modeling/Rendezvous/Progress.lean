import Rendezvous.Procedure

/-!
# Progress of scenarios

The part of the system that is called `ScenarioStateTracker` there: what is known about the steps
of each scenario. A change reads the whole state, changes it and saves it whole; scenarios with
different keys share nothing. A read that fails answers as if nothing were known, and a change that
fails is reported and leaves things as they were.
-/

namespace Rendezvous.Progress

open Proc

def entry (level : Level) (message : String) (fields : List (String × LogValue)) : LogEntry :=
  ⟨level, "resume_engine::tracker", message, fields⟩

/-- What is known about a scenario. A read that fails is reported and answers as if nothing were
known, so a failing store cannot be told from an empty one by those who ask. -/
def load (s : Scenario) : Proc (Option ScenarioState) := do
  match ← scenarios (.find s.key) with
  | .ok state => return state
  | .error f =>
    note (entry .warn "Failed to load scenario state"
      [("scenario", .shown s.key), ("error", .shown f.message)])
    return none

/-- Reads the state of a scenario, or starts one, and saves what `change` makes of it at the time
of the change. -/
def update (s : Scenario) (change : ScenarioState → Instant → ScenarioState) :
    Proc (Except Fault ScenarioState) := do
  match ← scenarios (.find s.key) with
  | .error f => return .error f
  | .ok known =>
    let time ← now
    let state := change (known.getD (.new s time)) time
    match ← scenarios (.save state) with
    | .error f => return .error f
    | .ok () => return .ok state

/-- Records a status of a step (`mark_step`). The change is reported either way and never fails:
when the store cannot be read or written, the step stays as it was. -/
def mark (s : Scenario) (step : String) (status : StepStatus) (data : Option Capture) :
    Proc Unit := do
  match ← update s fun state time => state.mark step status data time with
  | .ok state =>
    note (entry .debug "Step recorded"
      [("scenario", .shown state.key), ("step", .plain step), ("status", .shown status.name)])
  | .error f =>
    note (entry .warn "Failed to record step status"
      [("scenario", .shown s.key), ("step", .plain step), ("status", .shown status.name),
        ("error", .shown f.message)])

/-- Whether the step is known to have passed (`is_step_already_successful`). A failing read says
no. -/
def succeeded (s : Scenario) (step : String) : Proc Bool := do
  return (← load s).any (·.succeeded step)

/-- What a successful step captured (`get_step_data`); empty when nothing is known or the read
fails. -/
def data (s : Scenario) (step : String) : Proc Capture := do
  return ((← load s).bind (·.captured.get? step)).getD .empty

/-- Records the status of the scenario itself. A failure is reported and changes nothing; a success
is not reported. -/
def setStatus (s : Scenario) (status : ScenarioStatus) : Proc Unit := do
  if let .error f ← update s fun state time => state.withStatus status time then
    note (entry .warn "Failed to update scenario status"
      [("scenario", .shown s.key), ("status", .shown status.name), ("error", .shown f.message)])

/-- Forgets one scenario, with the status of all its steps. Other than a change, this hands a fault
of the store on to the caller. -/
def clear (s : Scenario) : Proc (Except Fault Unit) := scenarios (.delete s.key)

/-- Forgets all scenarios, as is done before a suite is run again. A fault is handed on here,
too. -/
def clearAll : Proc (Except Fault Unit) := scenarios .clear

end Rendezvous.Progress
