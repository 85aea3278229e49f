/-!
# Correlation keys

How keys are made, by what the system calls its `KeyCodec`. A key is its fields in order, joined by
a delimiter. A blank field still takes its place, so keys of different shape have different numbers
of fields.
-/

namespace Rendezvous.Key

/-- What stands between two fields of a key. Fields may hold it, or run into it with a colon at
their edge, and then a key does not tell its fields. -/
def delimiter : String := "::"

def join (fields : List String) : String := delimiter.intercalate fields

/-- The key an observed event is recorded under: its order and its type. -/
def forOrder (order eventType : String) : String := join [order, eventType]

/-- The key a step of a scenario waits under, from all that tells it apart from other steps and what
it waits for. -/
def forWait (feature line exampleRow order eventType : String) : String :=
  join [feature, line, exampleRow, order, eventType]

/-- The key the state of a scenario is kept under: its name, and the row of its example, which is
empty without examples. -/
def forScenario (name exampleRow : String) : String := join [name, exampleRow]

end Rendezvous.Key
