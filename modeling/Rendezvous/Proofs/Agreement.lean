import Rendezvous.Proofs.Redelivery
import Rendezvous.Session.Delivery

/-!
# Transports agree

A direct transport hands each event to the engine once. A bus hands it to the engine as often as
the engine is attached, and to others in between who may fail or crash. Either way the stores and
the mailboxes end up the same (`Host.transports_agree`): what others do with an event does not keep
it from the engine, and the second time an event reaches the engine it changes nothing.

`Host` is what is needed of the place in which a bus delivers: the engine takes events in, and the
other subscribers leave the stores and the mailboxes alone. A session is such a place, if it sends
over a bus of its own and no store call fails (`Host.ofSession`).
-/

namespace Rendezvous

open Proc

/-! ## Sending directly -/

namespace State

theorem run_sendDirect (s : State) (g : Engine) (e : Record) :
    (run answer (Transport.sendDirect g e) s).2 = s.accepted g e := by
  rw [Transport.sendDirect, run_bind]
  rfl

/-- The state after each of the events was sent directly, that many milliseconds after the one
before. -/
def sentDirect (s : State) (g : Engine) (es : List (Nat × Record)) : State :=
  es.foldl (fun s e => (run answer (Transport.sendDirect g e.2) (s.wait e.1)).2) s

end State

/-! ## Sending over a bus -/

/-- A delivery goes on with the next subscriber, after a complaint about this one if it failed.
Complaints are only logged, so each subscriber is called in the state that the one before has
left. -/
theorem Bus.deliver_cons {σ κ : Type} (conduct : Conduct (StateM σ) κ) (e : Record)
    (r : PublishCount) (id : Subscription) (c : κ) (rest : List (Subscription × κ)) (s : σ) :
    deliver conduct e r ((id, c) :: rest) s
      = deliver conduct e (r.count (conduct.handle c e s).1) rest
          ((complaint id (conduct.name c) e (conduct.handle c e s).1).elim
            (conduct.handle c e s).2
            fun entry => (conduct.note entry (conduct.handle c e s).2).2) := by
  have hbind : ∀ {α β : Type} (p : StateM σ α) (f : α → StateM σ β) (t : σ),
      (p >>= f) t = f (p t).1 (p t).2 := fun _ _ _ => rfl
  rw [deliver, hbind]
  cases complaint id (conduct.name c) e (conduct.handle c e s).1 <;> rfl

/-- A place in which a bus delivers, to the engine `g` among others. The fields say what is needed
of it: the engine takes events in when it is called, and nobody else has a hand in the stores. -/
structure Host (g : Engine) (σ κ : Type) where
  state : σ → State
  bus : σ → Bus κ
  conduct : Bus.Conduct (StateM σ) κ
  wait : Nat → σ → σ
  isEngine : κ → Bool
  /-- Whoever has no hand in the stores and the mailboxes. -/
  Aloof : κ → Prop
  /-- The engine is attached, all other subscribers are aloof, and no store call fails. -/
  Ok : σ → Prop
  attached : ∀ s, Ok s → ∃ m ∈ (bus s).subscribers, isEngine m.2 = true
  aloof : ∀ s, Ok s → ∀ m ∈ (bus s).subscribers, isEngine m.2 = true ∨ Aloof m.2
  handle_engine : ∀ s c e, Ok s → isEngine c = true →
    Ok (conduct.handle c e s).2 ∧ state (conduct.handle c e s).2 = (state s).accepted g e
  handle_aloof : ∀ s c e, Ok s → Aloof c →
    Ok (conduct.handle c e s).2 ∧ state (conduct.handle c e s).2 = state s
  note_keeps : ∀ s entry, Ok s →
    Ok (conduct.note entry s).2 ∧ state (conduct.note entry s).2 = state s
  wait_keeps : ∀ s ms, Ok s → Ok (wait ms s) ∧ state (wait ms s) = (state s).wait ms

namespace Host

variable {g : Engine} {σ κ : Type} (h : Host g σ κ)

def send (e : Record) : StateM σ Unit := do
  let r ← (h.bus (← get)).publish h.conduct e
  h.conduct.note (Transport.published e r)

/-- The state of the host after each of the events was sent over the bus, that many milliseconds
after the one before. It is to `State.sentDirect` what the bus is to the direct transport. -/
def sent (s : σ) (es : List (Nat × Record)) : σ :=
  es.foldl (fun s e => (h.send e.2 (h.wait e.1 s)).2) s

/-- The engine, if it is among those an event is delivered to, has taken it in afterwards, whoever
comes before it, after it or in between, and however often it is there. -/
theorem state_deliver (e : Record) (r : PublishCount) (subscribers : List (Subscription × κ))
    (s : σ) (hs : h.Ok s) (hall : ∀ m ∈ subscribers, h.isEngine m.2 = true ∨ h.Aloof m.2) :
    h.Ok (Bus.deliver h.conduct e r subscribers s).2
      ∧ h.state (Bus.deliver h.conduct e r subscribers s).2
        = if subscribers.any (h.isEngine ·.2) then (h.state s).accepted g e else h.state s := by
  induction subscribers generalizing r s with
  | nil => exact ⟨hs, rfl⟩
  | cons m rest ih =>
      obtain ⟨id, c⟩ := m
      obtain ⟨ht, hstate⟩ : h.Ok (h.conduct.handle c e s).2
          ∧ h.state (h.conduct.handle c e s).2
            = if h.isEngine c then (h.state s).accepted g e else h.state s := by
        cases hc : h.isEngine c with
        | true => exact h.handle_engine s c e hs hc
        | false =>
            have haloof : h.Aloof c := (hall (id, c) List.mem_cons_self).resolve_left (by simp [hc])
            exact h.handle_aloof s c e hs haloof
      rw [Bus.deliver_cons]
      generalize hu : (Bus.complaint id (h.conduct.name c) e (h.conduct.handle c e s).1).elim
        (h.conduct.handle c e s).2
        (fun entry => (h.conduct.note entry (h.conduct.handle c e s).2).2) = u
      obtain ⟨hok, hsame⟩ : h.Ok u ∧ h.state u = h.state (h.conduct.handle c e s).2 := by
        rw [← hu]
        cases Bus.complaint id (h.conduct.name c) e (h.conduct.handle c e s).1 with
        | none => exact ⟨ht, rfl⟩
        | some entry => exact h.note_keeps _ entry ht
      obtain ⟨hv, hvstate⟩ := ih _ u hok fun m hm => hall m (List.mem_cons_of_mem _ hm)
      refine ⟨hv, hvstate.trans ?_⟩
      rw [List.any_cons, hsame, hstate]
      cases h.isEngine c <;> cases rest.any (h.isEngine ·.2) <;> simp [State.accepted_accepted]

theorem state_send (e : Record) (s : σ) (hs : h.Ok s) :
    h.Ok (h.send e s).2 ∧ h.state (h.send e s).2 = (h.state s).accepted g e := by
  obtain ⟨m, hm, hengine⟩ := h.attached s hs
  have hany : (h.bus s).subscribers.any (h.isEngine ·.2) = true :=
    List.any_eq_true.mpr ⟨m, hm, hengine⟩
  have hsome : (h.bus s).subscribers.isEmpty = false := by
    cases hsub : (h.bus s).subscribers with
    | nil =>
        rw [hsub] at hm
        cases hm
    | cons => rfl
  obtain ⟨ht, hstate⟩ := h.state_deliver e ⟨0, 0⟩ (h.bus s).subscribers s hs (h.aloof s hs)
  rw [if_pos hany] at hstate
  have hsend : (h.send e s).2
      = (h.conduct.note (Transport.published e
          (Bus.deliver h.conduct e ⟨0, 0⟩ (h.bus s).subscribers s).1)
          (Bus.deliver h.conduct e ⟨0, 0⟩ (h.bus s).subscribers s).2).2 := by
    show (((h.bus s).publish h.conduct e >>= fun r => h.conduct.note (Transport.published e r))
      s).2 = _
    rw [Bus.publish, hsome]
    rfl
  rw [hsend]
  obtain ⟨hu, hustate⟩ := h.note_keeps _ (Transport.published e
    (Bus.deliver h.conduct e ⟨0, 0⟩ (h.bus s).subscribers s).1) ht
  exact ⟨hu, hustate.trans hstate⟩

end Host

/-! ## Sessions as hosts -/

/-- A probe of this kind does nothing but note the event, and it may fail or crash. Those that
change the bus or publish on it are not of this kind. -/
def Behaviour.Aloof : Behaviour → Prop
  | .record | .anonymous | .fail _ | .crash _ => True
  | .spawn | .kill _ | .republish _ => False

namespace Session

/-- No store call fails: the faults of both stores have no rules. -/
structure Healthy (s : Session) : Prop where
  events : s.eventFaults = .empty
  scenarios : s.scenarioFaults = .empty

/-- A session in which nothing fails answers as its state does, and goes on sending as before. -/
theorem Healthy.answer {s : Session} (h : s.Healthy) (r : Request) :
    (Session.answer r s).1 = (State.answer r s.state).1
      ∧ (Session.answer r s).2.state = (State.answer r s.state).2
      ∧ (Session.answer r s).2.Healthy ∧ (Session.answer r s).2.channel = s.channel := by
  obtain ⟨hevents, hscenarios⟩ := h
  cases s
  subst hevents hscenarios
  cases r with
  | events c => cases c <;> exact ⟨rfl, rfl, ⟨rfl, rfl⟩, rfl⟩
  | scenarios c => cases c <;> exact ⟨rfl, rfl, ⟨rfl, rfl⟩, rfl⟩
  | _ => exact ⟨rfl, rfl, ⟨rfl, rfl⟩, rfl⟩

theorem Healthy.run {α : Type} {s : Session} (h : s.Healthy) (p : Proc α) :
    (Script.run p s).2.state = (Proc.run State.answer p s.state).2
      ∧ (Script.run p s).2.Healthy ∧ (Script.run p s).2.channel = s.channel := by
  induction p generalizing s with
  | done a => exact ⟨rfl, h, rfl⟩
  | ask r next ih =>
      obtain ⟨hanswer, hstate, hhealthy, hchannel⟩ := h.answer r
      obtain ⟨hend, hstill, hsame⟩ := ih (Session.answer r s).1 hhealthy
      refine ⟨?_, hstill, hsame.trans hchannel⟩
      refine hend.trans ?_
      rw [hanswer, hstate]
      rfl

def channelBus (s : Session) : Bus Consumer :=
  match s.channel with
  | .own bus => bus
  | _ => s.bus

/-- The session sends over a bus of its own, to which the engine is attached, among probes that do
nothing but note the event. -/
structure Sends (s : Session) (g : Engine) : Prop where
  healthy : s.Healthy
  channel : s.channel = .own s.channelBus
  attached : ∃ m ∈ s.channelBus.subscribers, m.2 = .engine g
  aloof : ∀ m ∈ s.channelBus.subscribers,
    m.2 = .engine g ∨ ∃ name behaviour, m.2 = .probe name behaviour ∧ behaviour.Aloof

/-- Only the channel and the rules for faults matter. -/
theorem Sends.congr {s t : Session} {g : Engine} (h : s.Sends g) (healthy : t.Healthy)
    (channel : t.channel = s.channel) : t.Sends g := by
  have hbus : t.channelBus = s.channelBus := by
    rw [channelBus, channelBus, channel, h.channel]
  exact ⟨healthy, by rw [channel, hbus, h.channel], hbus ▸ h.attached, hbus ▸ h.aloof⟩

theorem Sends.handle_engine {s : Session} {g : Engine} (h : s.Sends g)
    (again : Record → Script Unit) (e : Record) :
    (handle again (.engine g) e s).2.Sends g
      ∧ (handle again (.engine g) e s).2.state = s.state.accepted g e := by
  obtain ⟨hstate, hhealthy, hchannel⟩ := h.healthy.run (g.accept e)
  exact ⟨h.congr hhealthy hchannel, hstate⟩

theorem Sends.handle_probe {s : Session} {g : Engine} (h : s.Sends g)
    (again : Record → Script Unit) (name : String) {behaviour : Behaviour}
    (haloof : behaviour.Aloof) (e : Record) :
    (handle again (.probe name behaviour) e s).2.Sends g
      ∧ (handle again (.probe name behaviour) e s).2.state = s.state := by
  have hhealthy : Healthy { s with seen := (name, e.key) :: s.seen } :=
    ⟨h.healthy.events, h.healthy.scenarios⟩
  have hnoted : Sends { s with seen := (name, e.key) :: s.seen } g := h.congr hhealthy rfl
  cases behaviour with
  | spawn | kill | republish => cases haloof
  | _ => exact ⟨hnoted, rfl⟩

end Session

/-- A session that sends over a bus of its own is such a place, as long as its other subscribers are
aloof. -/
def Host.ofSession (g : Engine) : Host g Session Consumer where
  state := Session.state
  bus := Session.channelBus
  conduct := Session.conduct fun e => do let _ ← Session.publish e
  wait ms s := { s with state := s.state.wait ms }
  isEngine c := c = .engine g
  Aloof c := ∃ name behaviour, c = .probe name behaviour ∧ behaviour.Aloof
  Ok s := s.Sends g
  attached := by
    intro s h
    obtain ⟨m, hm, hengine⟩ := h.attached
    exact ⟨m, hm, by simpa using hengine⟩
  aloof := by
    intro s h m hm
    simpa using h.aloof m hm
  handle_engine := by
    intro s c e h hc
    obtain rfl : c = .engine g := by simpa using hc
    exact h.handle_engine (fun e => do let _ ← Session.publish e) e
  handle_aloof := by
    rintro s c e h ⟨name, behaviour, rfl, haloof⟩
    exact h.handle_probe (fun e => do let _ ← Session.publish e) name haloof e
  note_keeps := by
    intro s entry h
    exact ⟨h.congr ⟨h.healthy.events, h.healthy.scenarios⟩ rfl, rfl⟩
  wait_keeps := by
    intro s ms h
    exact ⟨h.congr ⟨h.healthy.events, h.healthy.scenarios⟩ rfl, rfl⟩

/-- What a session sends it sends as such a host. -/
theorem Session.Sends.send_eq {s : Session} {g : Engine} (h : s.Sends g) (e : Record) :
    Session.send e s = (Host.ofSession g).send e s := by
  have hget : ∀ f : Session → Script Unit, (get >>= f) s = f s s := fun _ => rfl
  rw [Session.send, hget, h.channel]
  rfl

/-- The engine takes in once what a session sends, however many others are subscribed and however
they fail. -/
theorem Session.Sends.send {s : Session} {g : Engine} (h : s.Sends g) (e : Record) :
    (Session.send e s).2.Sends g ∧ (Session.send e s).2.state = s.state.accepted g e := by
  rw [h.send_eq]
  exact (Host.ofSession g).state_send e s h

/-! ## The two compared -/

/-- **It makes no difference over which transport events are sent.** Whatever the stores and the
mailboxes hold, a sequence of events leaves them the same whether it is sent directly or over a bus
to which the engine is attached once or several times, among others who may fail or crash but leave
the stores and the mailboxes alone. And to accept an event again and again, at once or later, comes
to the same as to accept it once. -/
theorem Host.transports_agree {g : Engine} {σ κ : Type} (h : Host g σ κ) (s : σ) (hs : h.Ok s)
    (es : List (Nat × Record)) :
    h.state (h.sent s es) = (h.state s).sentDirect g es
      ∧ ∀ (t : State) (e : Record) (n ms : Nat),
        (fun u : State => u.accepted g e)^[n + 1] t = t.accepted g e
          ∧ ((t.accepted g e).wait ms).accepted g e = (t.accepted g e).wait ms := by
  constructor
  · induction es generalizing s with
    | nil => rfl
    | cons e es ih =>
        obtain ⟨hwait, hwaited⟩ := h.wait_keeps s e.1 hs
        obtain ⟨hsend, hsent⟩ := h.state_send e.2 _ hwait
        have hrest := ih _ hsend
        rw [hsent, hwaited] at hrest
        rw [State.sentDirect, List.foldl_cons, State.run_sendDirect]
        exact hrest
  · intro t e n ms
    exact ⟨State.iterate_accepted g e n t, t.accepted_wait_accepted g e ms⟩

/-- A session assembled from settings, with a probe that fails, the engine attached once more, and a
probe that crashes. -/
def crowd : Session :=
  let attachAll : Script Unit := do
    let _ ← Session.subscribeChannel (.probe "loud" (.fail "refused"))
    let _ ← Session.attach ⟨some Side.x.mailbox⟩
    let _ ← Session.subscribeChannel (.probe "frail" (.crash none))
  (attachAll (Session.ofSetup ⟨none, 1, 0, true, true, some Settings.default⟩)).2

def shippedTwice : List (Nat × Record) :=
  [(0, .observed "ORD1" "SHIPPED" .null default), (1000, .observed "ORD1" "SHIPPED" .null default)]

theorem crowd_agrees : (Host.ofSession ⟨some Side.x.mailbox⟩).Ok crowd
    ∧ ((Host.ofSession ⟨some Side.x.mailbox⟩).sent crowd shippedTwice).state
      = crowd.state.sentDirect ⟨some Side.x.mailbox⟩ shippedTwice := by
  have hbus : crowd.channelBus.subscribers
      = [(⟨0⟩, .engine ⟨some Side.x.mailbox⟩), (⟨1⟩, .probe "loud" (.fail "refused")),
        (⟨2⟩, .engine ⟨some Side.x.mailbox⟩), (⟨3⟩, .probe "frail" (.crash none))] := by rfl
  have hsends : crowd.Sends ⟨some Side.x.mailbox⟩ := by
    refine ⟨⟨rfl, rfl⟩, rfl, ?_, ?_⟩
    · rw [hbus]
      exact ⟨_, List.mem_cons_self, rfl⟩
    · rw [hbus]
      simp only [List.forall_mem_cons]
      exact ⟨.inl trivial, .inr ⟨_, _, rfl, trivial⟩, .inl trivial, .inr ⟨_, _, rfl, trivial⟩,
        by simp⟩
  obtain ⟨hagree, -⟩ := (Host.ofSession ⟨some Side.x.mailbox⟩).transports_agree crowd hsends
    shippedTwice
  exact ⟨hsends, hagree⟩

end Rendezvous
