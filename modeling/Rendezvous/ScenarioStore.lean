import Rendezvous.Scenario

/-!
# The scenario store

One state per scenario key; a save replaces the whole state.
-/

namespace Rendezvous

/-- The store of scenario states: what `ScenarioStateStore` promises and `MemoryScenarioStore`
keeps. -/
structure ScenarioStore where
  states : Table ScenarioState
deriving DecidableEq

namespace ScenarioStore

def empty : ScenarioStore := ⟨.empty⟩

instance : Inhabited ScenarioStore := ⟨empty⟩

/-- The state under `key` (`find_by_scenario_key`), as it was saved last. -/
def find? (s : ScenarioStore) (key : String) : Option ScenarioState := s.states.get? key

/-- Keeps a state under its own key, in place of an earlier one. Nothing of the earlier one is
merged in. -/
def save (s : ScenarioStore) (state : ScenarioState) : ScenarioStore :=
  ⟨s.states.insert state.key state⟩

def delete (s : ScenarioStore) (key : String) : ScenarioStore := ⟨s.states.erase key⟩

theorem find?_save (s : ScenarioStore) (state : ScenarioState) (key : String) :
    (s.save state).find? key = if key = state.key then some state else s.find? key :=
  Table.get?_insert ..

theorem find?_delete (s : ScenarioStore) (k key : String) :
    (s.delete k).find? key = if key = k then none else s.find? key := by
  show (s.states.erase k).get? key = _
  split
  · subst key; exact Table.get?_erase_self ..
  · exact Table.get?_erase_ne _ ‹_›

end ScenarioStore

end Rendezvous
