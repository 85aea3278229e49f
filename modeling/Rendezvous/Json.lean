import Rendezvous.Binary64
import Rendezvous.Table

/-!
# JSON values

Whole numbers of 64 bits are exact and apart from all other numbers. The fields of an object stand
in key order; a reader that meets a field twice keeps the last.
-/

namespace Rendezvous

/-- A JSON value, such as the payload of an event. What stands in a payload is carried along and
never looked at. -/
inductive Json
  | null
  | bool (b : Bool)
  | int (i : Int)
  | float (v : Binary64)
  | str (s : String)
  | arr (items : List Json)
  | obj (fields : List (String × Json))

namespace Json

instance : Inhabited Json := ⟨.null⟩

/-! ## Equality -/

mutual

/-- Whether two values are the same. Their parts are compared in order; the fields of objects stand
in key order anyway. -/
def same : Json → Json → Bool
  | .null, .null => true
  | .bool a, .bool b => a = b
  | .int a, .int b => a = b
  | .float a, .float b => a = b
  | .str a, .str b => a = b
  | .arr a, .arr b => sameItems a b
  | .obj a, .obj b => sameFields a b
  | _, _ => false

def sameItems : List Json → List Json → Bool
  | [], [] => true
  | a :: l, b :: m => same a b && sameItems l m
  | _, _ => false

def sameFields : List (String × Json) → List (String × Json) → Bool
  | [], [] => true
  | (j, a) :: l, (k, b) :: m => j = k && same a b && sameFields l m
  | _, _ => false

end

mutual

theorem same_iff : ∀ a b : Json, same a b = true ↔ a = b
  | .null, b => by cases b <;> simp [same]
  | .bool _, b => by cases b <;> simp [same]
  | .int _, b => by cases b <;> simp [same]
  | .float _, b => by cases b <;> simp [same]
  | .str _, b => by cases b <;> simp [same]
  | .arr l, b => by cases b <;> simp [same, sameItems_iff l]
  | .obj l, b => by cases b <;> simp [same, sameFields_iff l]

theorem sameItems_iff : ∀ l m : List Json, sameItems l m = true ↔ l = m
  | [], m => by cases m <;> simp [sameItems]
  | a :: l, m => by cases m <;> simp [sameItems, same_iff a, sameItems_iff l]

theorem sameFields_iff : ∀ l m : List (String × Json), sameFields l m = true ↔ l = m
  | [], m => by cases m <;> simp [sameFields]
  | (j, a) :: l, m => by
    cases m with
    | nil => simp [sameFields]
    | cons d m => obtain ⟨k, b⟩ := d; simp [sameFields, same_iff a, sameFields_iff l]

end

instance : DecidableEq Json := fun a b => decidable_of_iff _ (same_iff a b)

/-! ## Fields -/

def ofTable {α : Type} (encode : α → Json) (t : Table α) : Json :=
  .obj (t.entries.map fun e => (e.1, encode e.2))

def field? (key : String) (fields : List (String × Json)) : Option Json := Entries.get? key fields

end Json

end Rendezvous
