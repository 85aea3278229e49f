import Rendezvous.Text.Blank

/-!
# Statuses of steps and scenarios

Each status has one name. A text names a status when it is that name up to surrounding blanks and
the case of ASCII letters.
-/

namespace Rendezvous

/-- How a step of a scenario stands. Of these only the success makes a difference to the components:
such a step is skipped when it is verified again. -/
inductive StepStatus
  | pending
  | success
  | failed
  | skipped
deriving DecidableEq

/-- How a scenario stands as a whole. It is recorded for those who look at it; nothing in the
components depends on it. -/
inductive ScenarioStatus
  | running
  | paused
  | passed
  | failed
  | skipped
deriving DecidableEq

/-- A text that names no status of its kind. It is kept as it was compared, trimmed and in lower
case. -/
inductive StatusError
  | step (text : String)
  | scenario (text : String)
deriving DecidableEq

def StatusError.message : StatusError → String
  | .step text => s!"Invalid status: unknown step status '{text}'"
  | .scenario text => s!"Invalid status: unknown scenario status '{text}'"

namespace StepStatus

def name : StepStatus → String
  | .pending => "pending"
  | .success => "success"
  | .failed => "failed"
  | .skipped => "skipped"

def ofName? : String → Option StepStatus
  | "pending" => some .pending
  | "success" => some .success
  | "failed" => some .failed
  | "skipped" => some .skipped
  | _ => none

def parse (text : String) : Except StatusError StepStatus :=
  match ofName? (Text.fold text) with
  | some s => .ok s
  | none => .error (.step (Text.fold text))

end StepStatus

namespace ScenarioStatus

def name : ScenarioStatus → String
  | .running => "running"
  | .paused => "paused"
  | .passed => "passed"
  | .failed => "failed"
  | .skipped => "skipped"

def ofName? : String → Option ScenarioStatus
  | "running" => some .running
  | "paused" => some .paused
  | "passed" => some .passed
  | "failed" => some .failed
  | "skipped" => some .skipped
  | _ => none

def parse (text : String) : Except StatusError ScenarioStatus :=
  match ofName? (Text.fold text) with
  | some s => .ok s
  | none => .error (.scenario (Text.fold text))

end ScenarioStatus

end Rendezvous
