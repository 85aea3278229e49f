import Rendezvous.Instant
import Rendezvous.Key
import Rendezvous.Status
import Rendezvous.Table

/-!
# Scenarios

A scenario is known by its name and, where it runs once per row of examples, by that row. Its
state holds the status of each step, what successful steps captured, and a status of its own.
-/

namespace Rendezvous

/-- A scenario, `ScenarioIdentity` in the system. The test case it belongs to is no part of its
key. -/
structure Scenario where
  name : String
  /-- Empty for a scenario without examples. -/
  exampleRow : String
  testCase : Option String
deriving DecidableEq

def Scenario.key (s : Scenario) : String := Key.forScenario s.name s.exampleRow

/-- What a successful step captured, by name (`StepData`). Later steps and later runs read it from
here. -/
abbrev Capture := Table String

/-- What is known about a scenario and its steps. It is read, changed and written as a whole, so of
two changes at once one may be lost. -/
structure ScenarioState where
  key : String
  name : String
  testCase : Option String
  exampleRow : Option String
  stepStatus : Table StepStatus
  /-- Holds an entry for successful steps only. -/
  captured : Table Capture
  status : Option ScenarioStatus
  lastUpdated : Instant
deriving DecidableEq

namespace ScenarioState

def new (s : Scenario) (now : Instant) : ScenarioState where
  key := s.key
  name := s.name
  testCase := s.testCase
  exampleRow := if s.exampleRow = "" then none else some s.exampleRow
  stepStatus := .empty
  captured := .empty
  status := none
  lastUpdated := now

/-- Records a status of a step. Data is kept for a success only; any other status drops what an
earlier attempt captured, and a success without data leaves that as it is. -/
def mark (s : ScenarioState) (step : String) (status : StepStatus) (data : Option Capture)
    (now : Instant) : ScenarioState :=
  { s with
    stepStatus := s.stepStatus.insert step status
    captured := match status, data with
      | .success, some data => s.captured.insert step data
      | .success, none => s.captured
      | _, _ => s.captured.erase step
    lastUpdated := now }

/-- Records the status of the scenario itself, at the time `now`. Its steps are not looked at, and
any status may follow any other. -/
def withStatus (s : ScenarioState) (status : ScenarioStatus) (now : Instant) : ScenarioState :=
  { s with status := some status, lastUpdated := now }

def succeeded (s : ScenarioState) (step : String) : Bool :=
  s.stepStatus.get? step = some .success

end ScenarioState

end Rendezvous
