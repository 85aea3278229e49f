import Rendezvous.Procedure
import Rendezvous.Table

/-!
# Faults of the stores

Each store method can be given a rule by which its calls fail. A call that fails does nothing to
its store; it uses up one failure where their number is limited. Calls are named by their method
and their arguments, as they are also listed.
-/

namespace Rendezvous

/-- Which calls of a store method fail, and with which message. The rule may be for one first
argument only, and for a number of calls. -/
structure FaultRule where
  message : String
  /-- Only calls with this first argument. -/
  only : Option String
  /-- How many more calls; all of them without a number. -/
  times : Option Nat
deriving DecidableEq

/-- The rules of a store, by method. A method without a rule never fails. -/
abbrev FaultRules := Table FaultRule

namespace EventCall

def method : EventCall → String
  | .save _ => "save"
  | .latest _ _ => "find_latest"
  | .find _ => "find_by_canonical_key"
  | .markPaused _ => "mark_paused"
  | .markReady _ => "mark_resume_ready"
  | .isReady _ => "is_resume_ready"
  | .byOrder _ => "find_by_order_id"
  | .paused => "find_paused"

/-- What a call is told apart by: the key of what it writes, or the arguments of what it asks
for. -/
def arguments : EventCall → List String
  | .save e => [e.key]
  | .latest order eventType => [order, eventType]
  | .find key => [key]
  | .markPaused context => [context.key]
  | .markReady key => [key]
  | .isReady key => [key]
  | .byOrder order => [order]
  | .paused => []

end EventCall

namespace ScenarioCall

def method : ScenarioCall → String
  | .find _ => "scenario.find"
  | .save _ => "scenario.save"
  | .delete _ => "scenario.delete"
  | .clear => "scenario.delete_all"

def arguments : ScenarioCall → List String
  | .find key => [key]
  | .save s => [s.key]
  | .delete key => [key]
  | .clear => []

end ScenarioCall

namespace FaultRules

/-- The fault of a call, if a rule applies to it, and the rules left for the next one. A rule for a
number of calls counts down with each one that fails, and is without effect when it has reached
zero. -/
def check (rules : FaultRules) (method : String) (arguments : List String) :
    Option Fault × FaultRules :=
  match rules.get? method with
  | none => (none, rules)
  | some rule =>
    if rule.only.all (· = arguments.headD "") then
      match rule.times with
      | none => (some ⟨rule.message⟩, rules)
      | some 0 => (none, rules)
      | some (n + 1) => (some ⟨rule.message⟩, rules.insert method { rule with times := some n })
    else (none, rules)

/-- The name of a rule of another kind: while it is set, another writer makes each record ready just
before a call would. -/
def race : String := "race"

end FaultRules

end Rendezvous
