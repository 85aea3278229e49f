import Rendezvous.Session.Command
import Rendezvous.Session.Delivery
import Rendezvous.Session.Timers

/-!
# Running a session

Each command of a session, carried out. A command first moves the clock on by a second; the clock
then stands still until the next command, which may be one that runs while this one waits.
-/

namespace Rendezvous.Session

abbrev Result := Except Failure Reply

def tickMs : Nat := 1000

/-- Moves the clock that stores and mailboxes go by. The timer of pollers and waits is another one
and stays. -/
def moveClock (ms : Nat) : Script Unit :=
  modify fun s => { s with state := s.state.wait ms }

def make (d : Draft) : Script Record := return d.make (← get).state.now

/-- A store call as a command of its own. A fault is the failure of the command. -/
def called {α : Type} (p : Proc (Except Fault α)) (reply : α → Reply) : Script Result := do
  match ← Script.run p with
  | .ok x => return .ok (reply x)
  | .error f => return .error (.store f)

def setRules (store : StoreName) (f : FaultRules → FaultRules) : Script Unit :=
  modify fun s => match store with
    | .events => { s with eventFaults := f s.eventFaults }
    | .scenarios => { s with scenarioFaults := f s.scenarioFaults }

/-! ## Parts -/

/-- The probe as a subscriber. What it names as its target is looked up now, so a later subscription
is not meant. -/
def consumer (p : Probe) : Script Consumer := do
  let s ← get
  return .probe p.name (match p.behaviour with
    | .kill _ => .kill (s.subscription? p.target)
    | behaviour => behaviour)

/-- Whether each task of a switch has ended, in the order they were started. There may be no such
switch. -/
def ended (switch : Nat) : Script Result := do
  let s ← get
  if switch < s.schedule.switches.length then return .ok (.flags (s.schedule.ended switch))
  else return .error (.badInput "index")

/-- Uses the switch if somebody still holds it, and answers which of its tasks have ended. Nobody is
told anything on a switch that was let go. -/
def withSwitch (switch : Nat) (use : Script Unit) : Script Result := do
  if (← get).schedule.isHeld switch then use
  ended switch

/-- Uses the receiver in a slot, if there is one. -/
def withSlot (slot : String) (use : MailboxId → Nat → Script Result) : Script Result := do
  match (← get).slots.get? slot with
  | some (mailbox, receiver) => use mailbox receiver
  | none => return .error (.badInput "slot")

/-- Uses what was put together from settings, if anything was. -/
def withAssembly (use : Assembly → Script Result) : Script Result := do
  match (← get).assembly with
  | some a => use a
  | none => return .error (.badInput "runtime")

/-- Registers a receiver and puts it into a slot. The receiver that was there is given up, as nobody
could ask for it any more. -/
def register (side : Side) (key slot : String) : Script Unit := do
  let receiver ← Script.run (Proc.register side.mailbox key)
  if let some (mailbox, earlier) := (← get).slots.get? slot then dropReceiver mailbox earlier
  modify fun s => { s with slots := s.slots.insert slot (side.mailbox, receiver) }

/-- Looks at a receiver without waiting and takes its result out, if it is there. -/
def receive (mailbox : MailboxId) (receiver : Nat) : Script Result := do
  let s ← get
  let (receipt, a) := (s.state.mailboxes mailbox).receive receiver
  set { s with state := s.state.setMailbox mailbox a }
  return .ok (.receipt receipt)

def unclaimed (side : Side) : Script Nat := do
  let s ← get
  let id := side.mailbox
  let (n, a) := (s.state.mailboxes id).unclaimed (s.state.retention id) s.state.clock
  set { s with state := s.state.setMailbox id a }
  return n

/-- Makes a new transport for an engine (`build_transport`), which is sent over from now on. A new
bus has no subscribers, the engine included. -/
def buildTransport (kind : Transport) (side : Side) : Script Unit :=
  modify fun s => { s with channel := match kind with
    | .bus => .own .empty
    | .direct => .direct (s.engine side) }

/-! ## Commands -/

/-- Carries out a command that does not wait. Each store call of it may fail, and what a component
reports goes into the log of the step. -/
def perform : Command → Script Result
  | .save d => do called (Proc.events (.save (← make d))) fun _ => .done
  | .markPaused d => do called (Proc.events (.markPaused (← make d))) fun _ => .done
  | .latest order eventType => called (Proc.events (.latest order eventType)) .record
  | .find key => called (Proc.events (.find key)) .record
  | .markReady key => called (Proc.events (.markReady key)) .flag
  | .storedReady key => called (Proc.events (.isReady key)) .flag
  | .byOrder order => called (Proc.events (.byOrder order)) .records
  | .paused => called (Proc.events .paused) .records
  | .records => return .ok (.records (← get).state.events.records.values)
  | .fail store method rule => do
    setRules store (·.insert method rule)
    return .ok .done
  | .heal store => do
    setRules store fun _ => .empty
    return .ok .done
  | .accept side d => do
    let outcome ← Script.run (((← get).engine side).accept (← make d))
    return .ok (.text outcome.name)
  | .isReady key => return .ok (.flag (← Script.run (Engine.isReady key)))
  | .wakeStored side key => do
    let s ← get
    match s.state.events.find? key with
    | some r => return .ok (.optionalCount (some (← Script.run ((s.engine side).wake r))))
    | none => return .ok (.optionalCount none)
  | .wake side d => do
    return .ok (.count (← Script.run (((← get).engine side).wake (← make d))))
  | .poll side => do return .ok (.stats (← Script.run ((← get).poller side).sweep))
  | .pollerName side => return .ok (.text ((← get).poller side).name)
  | .spawn side => do return .ok (.count (← spawn [(← get).poller side]))
  | .signal switch stop => withSwitch switch (tell switch (.told stop))
  | .dropSignal switch => withSwitch switch do
    tell switch .abandoned
    modify fun s => { s with schedule := s.schedule.release switch }
  | .ended switch => ended switch
  | .advance ms => do
    advanceTo ((← get).timer + ms)
    moveClock ms
    return .ok .done
  | .jump ms => do
    jumpTo ((← get).timer + ms)
    moveClock ms
    return .ok .done
  | .subscribe probe => do
    let id ← subscribeShared (← consumer probe)
    return .ok (.subscription (← listed (some id)))
  | .unsubscribe index => do
    match (← get).subscription? index with
    | some id => return .ok (.optionalFlag (some (← unsubscribeShared id)))
    | none => return .ok (.optionalFlag none)
  | .publish d => do return .ok (.report (← publish (← make d)))
  | .countSubscribers => return .ok (.count (← get).bus.subscribers.length)
  | .seen => return .ok (.deliveries (← get).seen.reverse)
  | .buildTransport kind side => do
    buildTransport kind side
    return .ok (.transport kind)
  | .useBus => do
    modify ({ · with channel := .shared })
    return .ok .done
  | .attach side => do return .ok (.subscription (← attach ((← get).engine side)))
  | .subscribeTransport probe => do
    return .ok (.subscription (← listed (← subscribeChannel (← consumer probe))))
  | .unsubscribeTransport index => do
    match (← get).subscription? index with
    | some id => return .ok (.optionalFlag (← unsubscribeChannel id))
    | none => return .ok (.optionalFlag none)
  | .send d => do
    send (← make d)
    return .ok .done
  | .register side key slot => do
    register side key slot
    return .ok .done
  | .complete side key d => do
    return .ok (.count (← Script.run (Proc.complete side.mailbox key (← make d))))
  | .receive slot => withSlot slot receive
  | .dropSlot slot => do
    match (← get).slots.get? slot with
    | some (mailbox, receiver) =>
      dropReceiver mailbox receiver
      modify fun s => { s with slots := s.slots.erase slot }
      return .ok (.flag true)
    | none => return .ok (.flag false)
  | .waiting side key => do
    return .ok (.count (← Script.run (Proc.waiting side.mailbox key)))
  | .unclaimed side => do return .ok (.count (← unclaimed side))
  | .mark scenario step status data => do
    Script.run (Progress.mark scenario step status data)
    return .ok .done
  | .succeeded scenario step => do
    return .ok (.flag (← Script.run (Progress.succeeded scenario step)))
  | .captured scenario step => do
    return .ok (.data (← Script.run (Progress.data scenario step)))
  | .setStatus scenario status => do
    Script.run (Progress.setStatus scenario status)
    return .ok .done
  | .clear scenario => called (Progress.clear scenario) fun _ => .done
  | .clearAll => called Progress.clearAll fun _ => .done
  | .findState key => called (Proc.scenarios (.find key)) .state
  | .saveState s => called (Proc.scenarios (.save s)) fun _ => .done
  | .deleteState key => called (Proc.scenarios (.delete key)) fun _ => .done
  | .deleteStates => called (Proc.scenarios .clear) fun _ => .done
  | .countStates => return .ok (.size (← get).state.scenarios.states.size)
  | .waitKey q => return .ok (.text q.key)
  | .verify q => called (Verifier.verify q) .verification
  | .verifyOrWait .. => return .ok .done
  | .assembly => withAssembly fun a =>
    return .ok (.assembly a.transport a.subscription (a.pollers.map (·.name)))
  | .addPoller name intervalMs side => withAssembly fun a => do
    let pollers := a.pollers ++ [⟨name, (← get).engine side, intervalMs⟩]
    modify ({ · with assembly := some { a with pollers } })
    return .ok (.count pollers.length)
  | .startPollers => withAssembly fun a => do
    let _ ← spawn a.pollers
    return .ok (.count a.pollers.length)
  | .refused f => return .error f

/-! ## Waiting -/

/-- Begins `verify_or_wait`: verifies, and leaves a wait behind in front of the others. It may be
over at once. -/
def beginWait (q : Question) (timeout : Nat) : Script Unit := do
  let s ← get
  let progress ← Script.run (s.verifier.start q)
  let wait := match progress with
    | .finished result => ⟨q, timeout, s.timer, 0, 0, some (result, s.timer)⟩
    | .waiting mailbox receiver => ⟨q, timeout, s.timer + timeout, mailbox, receiver, none⟩
  modify fun s => { s with waits := wait :: s.waits }
  settle

/-- Takes the innermost wait away, once it is over: its result, and the timer when it came. -/
def endWait : Script (Except Failure Verification × Nat) := do
  if let some w := (← get).waits.head? then finishWait w.deadline
  let s ← get
  set { s with waits := s.waits.tail }
  match s.waits.head?.bind (·.outcome) with
  | some (result, time) => return (result.mapError .store, time)
  | none => return (.error (.badInput "wait"), s.timer)

mutual

/-- Carries out any command. One that waits has the others carried out in the meantime, each at its
time, and is answered when it is over. -/
def execute : Command → Script Result
  | .verifyOrWait q timeout meanwhile => do
    moveClock tickMs
    let start := (← get).timer
    beginWait q timeout
    let replies ← executeAll start meanwhile
    let (result, time) ← endWait
    runDue
    return .ok (.waited result (time - start) replies)
  | command => do
    moveClock tickMs
    perform command

/-- Carries out commands at their times, counted from `start`. Waits that end by a command go on
before the next one. -/
def executeAll (start : Nat) : List (Nat × Command) → Script (List Result)
  | [] => return []
  | (delay, command) :: rest => do
    advanceBefore (start + delay)
    let result ← execute command
    settle
    let results ← executeAll start rest
    return result :: results

end

/-! ## Steps -/

/-- What a step of a session shows: the answer, what was reported and called on the way, and what is
kept of events afterwards. -/
structure Step where
  result : Result
  log : List LogEntry
  calls : List String
  /-- The event records after the step, by key. -/
  records : List Record

/-- One step of a session. What it has left in the log and on the list of calls is taken out, so
that the next step starts with neither. -/
def step (command : Command) : Script Step := do
  let result ← execute command
  let s ← get
  set { s with log := [], calls := [] }
  return { result, log := s.log.reverse, calls := s.calls.reverse,
           records := s.state.events.records.values }

/-- The steps of a session, one after the other. A step that fails does not end it. -/
def runAll : List Command → Script (List Step)
  | [] => return []
  | command :: rest => do
    let first ← step command
    return first :: (← runAll rest)

/-- What a session shows, from its start to its last command. This is all that can be seen of it
from outside. -/
def steps (setup : Setup) (commands : List Command) : List Step :=
  (runAll commands (ofSetup setup)).1

end Rendezvous.Session
