import Rendezvous.Instant.Writer
import Rendezvous.Json.Decoder
import Rendezvous.Scenario

/-!
# Scenario states as JSON

A state is written as an object with all eight fields. In an object that is read, optional fields
and the two step tables may be missing; a table that is there must not be null.
-/

namespace Rendezvous.ScenarioState

/-- The object that a state is written as, with its fields in the order of their names and null for
a missing value. -/
def encode (s : ScenarioState) : Json :=
  let option {α : Type} (f : α → Json) (v : Option α) : Json := (v.map f).getD .null
  .obj [("example_id", option .str s.exampleRow),
    ("last_updated", .str s.lastUpdated.text),
    ("scenario_key", .str s.key),
    ("scenario_name", .str s.name),
    ("scenario_status", option (fun t => .str t.name) s.status),
    ("step_data", .ofTable (.ofTable .str) s.captured),
    ("step_status", .ofTable (fun t => .str t.name) s.stepStatus),
    ("test_case_id", option .str s.testCase)]

open Decoder

/-- Reads a state from the fields of an object. A table that is not there counts as empty; statuses
are read up to blanks and case. -/
def ofFields (fields : List (String × Json)) : Except DecodeError ScenarioState := do
  let exampleRow ← optionalField string "example_id" fields
  let lastUpdated ← field instant "last_updated" fields
  let key ← field string "scenario_key" fields
  let name ← field string "scenario_name" fields
  let status ← optionalField scenarioStatus "scenario_status" fields
  let captured ← field (table (table string)) "step_data" fields
  let stepStatus ← field (table Decoder.stepStatus) "step_status" fields
  let testCase ← optionalField string "test_case_id" fields
  return { key := ← required key, name := ← required name, testCase, exampleRow,
           stepStatus := stepStatus.getD .empty, captured := captured.getD .empty, status,
           lastUpdated := ← required lastUpdated }

/-- Reads a state from the array of its fields, where none may be missing. -/
def ofItems (items : List Json) : Except DecodeError ScenarioState := do
  let (key, items) ← next string items
  let (name, items) ← next string items
  let (testCase, items) ← next (optional string) items
  let (exampleRow, items) ← next (optional string) items
  let (stepStatus, items) ← next (table Decoder.stepStatus) items
  let (captured, items) ← next (table (table string)) items
  let (status, items) ← next (optional scenarioStatus) items
  let (lastUpdated, items) ← next instant items
  finished { key, name, testCase, exampleRow, stepStatus, captured, status, lastUpdated } items

def decode : Decoder ScenarioState
  | .obj fields => ofFields fields
  | .arr items => ofItems items
  | _ => .error .malformed

end Rendezvous.ScenarioState
