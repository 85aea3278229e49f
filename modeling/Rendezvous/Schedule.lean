import Rendezvous.Poller
import Rendezvous.Sorting

/-!
# The schedule of pollers

A poller that is started runs a cycle at once and then one every interval, counted from its start,
until it is told to stop or nobody is left who could tell it. A tick that comes late by more than
five milliseconds swallows the ticks missed in the meantime; the next one falls on the next
multiple of the interval.

All that a started poller does is in `Task.turn`, the one step of its loop, which goes round on a
tick and on news of its switch, whichever comes first. The schedule only says which tasks take a
turn, on which signal and in which order.
-/

namespace Rendezvous

/-- A poller that was started, as it goes round in its loop; the system spawns a task of its own for
each. -/
structure Task where
  poller : Poller
  /-- The switch that stops it, which several tasks may share. -/
  switch : Nat
  /-- When the next cycle is due. -/
  due : Nat
  ended : Bool
  /-- Cycles run so far. -/
  cycles : Nat
deriving DecidableEq

namespace Task

/-- Lateness, in milliseconds, that is no reason to leave ticks out. A tick that comes later than
this swallows those missed since. -/
def tolerance : Nat := 5

/-- When the tick after the one taken now is due: one interval later, or, if this one comes too
late, at the next multiple of the interval since the start that is still ahead. -/
def dueAfter (t : Task) (now : Nat) : Nat :=
  if t.due + tolerance < now then now + t.poller.intervalMs - (now - t.due) % t.poller.intervalMs
  else t.due + t.poller.intervalMs

/-- The task when it has taken the tick that is due now. -/
def ticked (t : Task) (now : Nat) : Task := { t with due := t.dueAfter now, cycles := t.cycles + 1 }

/-- Whether the task still runs and has a tick to take. One that has ended is never due. -/
def isDue (t : Task) (now : Nat) : Bool := !t.ended && t.due ≤ now

/-- What a task waits for: its interval is over, a value was sent on its switch, or nobody holds the
switch any more, so that none ever will be. -/
inductive Signal
  | tick
  | told (stop : Bool)
  | abandoned

/-- One turn of the loop that a task runs: what becomes of the task, and what it does. On a tick it
runs a cycle. On a value that says to stop, or when nobody is left who could send one, it leaves
the loop and says so; a value that says to go on is no news. A task that has left takes no more
turns. -/
def turn (t : Task) (now : Nat) (signal : Signal) : Task × Proc Unit :=
  if t.ended then (t, return)
  else match signal with
    | .tick => if t.due ≤ now then (t.ticked now, t.poller.cycle) else (t, return)
    | .told false => (t, return)
    | .told true | .abandoned => ({ t with ended := true }, Proc.note t.poller.stopped)

end Task

/-- A timer, the tasks in the order they were started, and for each switch whether somebody still
holds it. -/
structure Schedule where
  timer : Nat
  tasks : List Task
  switches : List Bool
deriving DecidableEq

namespace Schedule

def empty : Schedule := ⟨0, [], []⟩

instance : Inhabited Schedule := ⟨empty⟩

def newSwitch (s : Schedule) : Nat × Schedule :=
  (s.switches.length, { s with switches := s.switches ++ [true] })

/-- Starts a task behind the others, due now. A poller without an interval cannot run, and its task
has ended from the start. -/
def start (s : Schedule) (p : Poller) (switch : Nat) : Schedule :=
  { s with tasks := s.tasks ++ [⟨p, switch, s.timer, p.intervalMs = 0, 0⟩] }

/-- The tasks of a switch by their numbers, in the order they were started. Those that have ended
are among them. -/
def ofSwitch (s : Schedule) (switch : Nat) : List Nat :=
  (List.range s.tasks.length).filter fun i => (s.tasks[i]?).any (·.switch = switch)

def setTask (s : Schedule) (i : Nat) (t : Task) : Schedule := { s with tasks := s.tasks.set i t }

def release (s : Schedule) (switch : Nat) : Schedule :=
  { s with switches := s.switches.set switch false }

/-- Whether somebody holds the switch, and could still send a value on it. A switch that was never
made is not held. -/
def isHeld (s : Schedule) (switch : Nat) : Bool := (s.switches[switch]?).getD false

/-- Whether each task of the switch has ended, in the order they were started. -/
def ended (s : Schedule) (switch : Nat) : List Bool :=
  (s.tasks.filter (·.switch = switch)).map (·.ended)

def isDue (s : Schedule) (i : Nat) : Bool := (s.tasks[i]?).any (·.isDue s.timer)

/-- The tasks due now, the most overdue first. Of equally overdue ones the one that was started
first goes first. -/
def due (s : Schedule) : List Nat :=
  let due := (List.range s.tasks.length).filter s.isDue
  let time (i : Nat) := ((s.tasks[i]?).map (·.due)).getD 0
  Sorting.sort (fun i j => time i ≤ time j) due

/-- When the next cycle of a running task is due, if any task runs. -/
def nextDue? (s : Schedule) : Option Nat :=
  ((s.tasks.filter fun t => !t.ended).map (·.due)).min?

end Schedule

end Rendezvous
