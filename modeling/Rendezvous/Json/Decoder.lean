import Rendezvous.Instant.Reader
import Rendezvous.Json
import Rendezvous.Status

/-!
# Decoding JSON

A decoder takes a value of exactly one shape; nothing is coerced. Composite values are decoded in
order, and the first part that fails decides the error. A record may be written as an object or
as the array of its fields: `field` reads a named field and `next` the next item of an array.
-/

namespace Rendezvous

/-- Why a value could not be decoded: it does not have the shape that is asked for, or a text in it
should name a status and names none. -/
inductive DecodeError
  | malformed
  | status (e : StatusError)
deriving DecidableEq

/-- A decoder of values into `α`. It takes a value as a whole or refuses it, and keeps nothing of a
value it refuses. -/
abbrev Decoder (α : Type) := Json → Except DecodeError α

namespace Decoder

variable {α : Type}

def string : Decoder String
  | .str s => .ok s
  | _ => .error .malformed

def bool : Decoder Bool
  | .bool b => .ok b
  | _ => .error .malformed

def instant : Decoder Instant
  | .str s => match Instant.read? s with
    | some t => .ok t
    | none => .error .malformed
  | _ => .error .malformed

/-- Takes a whole number of 32 bits with a sign. A double is refused even if its value is whole, and
so is a number out of range. -/
def int32 : Decoder Int32
  | .int i => if -0x80000000 ≤ i ∧ i < 0x80000000 then .ok (Int32.ofInt i) else .error .malformed
  | _ => .error .malformed

def any : Decoder Json := .ok

def stepStatus : Decoder StepStatus
  | .str s => (StepStatus.parse s).mapError .status
  | _ => .error .malformed

def scenarioStatus : Decoder ScenarioStatus
  | .str s => (ScenarioStatus.parse s).mapError .status
  | _ => .error .malformed

/-- Takes null for nothing, and anything else as `d` takes it. That a value is missing is another
matter, which `field` sees to. -/
def optional (d : Decoder α) : Decoder (Option α)
  | .null => .ok none
  | v => (d v).map some

/-- Decodes the fields of an object in their order. The first that fails decides the error, and
those behind it are not looked at. -/
def entries (d : Decoder α) : List (String × Json) → Except DecodeError (List (String × α))
  | [] => .ok []
  | (k, v) :: rest => do
    let v ← d v
    let rest ← entries d rest
    return (k, v) :: rest

/-- Takes an object with any fields, each of them decoded by `d`. The names of the fields become the
keys of the table. -/
def table (d : Decoder α) : Decoder (Table α)
  | .obj fields => (entries d fields).map Table.ofList
  | _ => .error .malformed

/-! ## Parts of a record -/

/-- The field under `key`, if the object has it. -/
def field (d : Decoder α) (key : String) (fields : List (String × Json)) :
    Except DecodeError (Option α) :=
  match Json.field? key fields with
  | none => .ok none
  | some v => (d v).map some

/-- A field that may be missing or null. -/
def optionalField (d : Decoder α) (key : String) (fields : List (String × Json)) :
    Except DecodeError (Option α) :=
  (field (optional d) key fields).map Option.join

/-- A field that must be there. -/
def required : Option α → Except DecodeError α
  | some v => .ok v
  | none => .error .malformed

def next (d : Decoder α) : List Json → Except DecodeError (α × List Json)
  | [] => .error .malformed
  | v :: rest => (d v).map (·, rest)

def finished (v : α) : List Json → Except DecodeError α
  | [] => .ok v
  | _ => .error .malformed

end Decoder

end Rendezvous
