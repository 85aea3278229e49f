import Rendezvous.Session

/-!
# Time in a session

The timer moves from one due time to the next. At each, waits whose time is up end first, then the
tasks that are due run their cycles, and then the waits whose receiver they resolved go on.
-/

namespace Rendezvous.Session

/-! ## Waits -/

/-- How a wait ends at this time, if it does. A receiver that was resolved counts before the
deadline does, also when both fall on one time. -/
def wakeup? (s : Session) (w : Wait) : Option Wakeup :=
  match (s.state.mailboxes w.mailbox).receivers[w.receiver]? with
  | some (.resolved _) => some .resolved
  | some .pending => if w.deadline ≤ s.timer then some .timedOut else none
  | _ => some .closed

def setWait (i : Nat) (w : Wait) : Script Unit :=
  modify fun s => { s with waits := s.waits.set i w }

/-- Takes the receiver of a wait away, so that a later completion finds nobody there. -/
def dropReceiver (mailbox : MailboxId) (receiver : Nat) : Script Unit :=
  modify fun s =>
    { s with state := s.state.setMailbox mailbox ((s.state.mailboxes mailbox).drop receiver) }

/-- Lets wait number `i` go on if its time has come, and keeps what it comes to. Its receiver is
taken away, so a later completion does not find it. -/
def settleWait (i : Nat) : Script Unit := do
  let s ← get
  match s.waits[i]? with
  | some w =>
    if w.outcome.isNone then
      if let some wakeup := s.wakeup? w then
        let result ← Script.run (Verifier.finish w.question w.timeout wakeup)
        dropReceiver w.mailbox w.receiver
        setWait i { w with outcome := some (result, s.timer) }
  | none => return

def settleAll : List Nat → Script Unit
  | [] => return
  | i :: rest => do
    settleWait i
    settleAll rest

/-- Lets all waits go on whose time has come, the innermost first. One that goes on may resolve
others, and those have their turn if they come later in the list. -/
def settle : Script Unit := do settleAll (List.range (← get).waits.length)

/-! ## Tasks -/

/-- Task `i` takes a turn of its loop, on a signal that has come. The task is put back before it
does anything, so whatever it does finds it in its place. -/
def takeTurn (signal : Task.Signal) (i : Nat) : Script Unit := do
  let s ← get
  match s.schedule.tasks[i]? with
  | some t =>
    let turn := t.turn s.timer signal
    modify fun s => { s with schedule := s.schedule.setTask i turn.1 }
    Script.run turn.2
  | none => return

def takeTurns (signal : Task.Signal) : List Nat → Script Unit
  | [] => return
  | i :: rest => do
    takeTurn signal i
    takeTurns signal rest

/-- Lets the tasks of a switch know, each by a turn of its own, in the order they were started. -/
def tell (switch : Nat) (signal : Task.Signal) : Script Unit := do
  takeTurns signal ((← get).schedule.ofSwitch switch)

/-- Runs the cycles of task `i` that are due, at most `fuel` of them. Each makes the next one due
later. -/
def runTask (i : Nat) : Nat → Script Unit
  | 0 => return
  | fuel + 1 => do
    if (← get).schedule.isDue i then
      takeTurn .tick i
      runTask i fuel

/-- A late tick within the tolerance leaves the next ones due, but no more of them than this, as an
interval is a millisecond at the least. -/
def ticksAtOnce : Nat := Task.tolerance + 1

def runTasks : List Nat → Script Unit
  | [] => return
  | i :: rest => do
    runTask i ticksAtOnce
    runTasks rest

/-- Runs the cycles that are due, the most overdue first. -/
def runDue : Script Unit := do runTasks (← get).schedule.due

/-- Starts pollers on one switch, one after the other. Each reports its start and runs its first
cycle before the next is started. -/
def startAll (switch : Nat) : List Poller → Script Unit
  | [] => return
  | p :: rest => do
    let i := (← get).schedule.tasks.length
    modify fun s => { s with schedule := s.schedule.start p switch }
    Script.note p.started
    runTask i ticksAtOnce
    startAll switch rest

/-- Starts pollers on one new switch; the number of the switch. -/
def spawn (pollers : List Poller) : Script Nat := do
  let (switch, schedule) := (← get).schedule.newSwitch
  modify ({ · with schedule })
  startAll switch pollers
  return switch

/-! ## Moving the timer -/

/-- The next time at which something is due: a wait that is up, or a cycle of a running task. -/
def nextTime? (s : Session) : Option Nat :=
  ((s.waits.filter (·.outcome.isNone)).map (·.deadline) ++ s.schedule.nextDue?.toList).min?

/-- Moves the timer to `time`; it never goes back. -/
def setTimer (time : Nat) : Script Unit :=
  modify fun s => { s with schedule := { s.schedule with timer := max s.timer time } }

/-- All that happens at one time. What a cycle resolves lets its wait go on at the same time
still. -/
def arrive (time : Nat) : Script Unit := do
  setTimer time
  settle
  runDue
  settle

/-- Goes through the due times up to `last`, at most `fuel` of them, until `stop` says so. What
happens at one time may make others due. -/
def passThrough (last : Nat) (stop : Session → Bool) : Nat → Script Unit
  | 0 => return
  | fuel + 1 => do
    let s ← get
    if !stop s then
      match s.nextTime? with
      | some time =>
        if time ≤ last then
          arrive time
          passThrough last stop fuel
      | none => return

/-- Moves the timer to `last`, by way of all that is due until then. There are no more due times on
the way than there are times, which is the fuel. -/
def advanceTo (last : Nat) : Script Unit := do
  passThrough last (fun _ => false) (last + 1 - (← get).timer)
  setTimer last

/-- Moves the timer to `last` as `advanceTo` does, but what is due at `last` itself is still to
come. -/
def advanceBefore (last : Nat) : Script Unit := do
  if (← get).timer < last then advanceTo (last - 1)
  setTimer last
  settle

/-- Moves the timer to `last` in one leap, as when a process was held up. What was due on the way is
late. -/
def jumpTo (last : Nat) : Script Unit := arrive last

def isOver (i : Nat) (s : Session) : Bool :=
  match s.waits[i]? with
  | some w => w.outcome.isSome
  | none => true

/-- Advances until the innermost wait is over, which it is at its deadline at the latest. -/
def finishWait (deadline : Nat) : Script Unit := do
  passThrough deadline (isOver 0) (deadline + 1 - (← get).timer)

end Rendezvous.Session
