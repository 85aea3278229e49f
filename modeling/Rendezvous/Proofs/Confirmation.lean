import Rendezvous.Proofs.Agreement
import Rendezvous.Proofs.Detection

/-!
# What a ready wait stands for

A wait is made ready because the event it is for has been seen, so what is ready should hold an
observation. The store, the pollers and the verifications take nothing for an observation that has
no time. The engine looks only at the type of an event: one without a time, such as the wait
itself, ends a wait for which nothing was observed (`Record.Feigns`). `ready_observed_iff` says that
nothing else makes a record ready without an observation, by whatever way events reach the engine,
and `wait_ended_by_itself` that a wait can indeed be ended by itself.
-/

namespace Rendezvous

open Proc

/-! ## Ready with an observation -/

/-- What is kept under `key` is ready only if it holds an observation, so that whoever goes on has
something to go on with. -/
def RecordStore.Confirmed (key : String) (s : RecordStore) : Prop :=
  ∀ r, s.find? key = some r → r.ready = true → r.isObserved = true

/-- The event is a feigned one: it has no time, so it is no observation, and yet it ends the wait
under its key, for which nothing was observed. -/
structure Record.Feigns (e : Record) (s : RecordStore) : Prop where
  keyed : Text.blank e.key = false
  timeless : e.isObserved = false
  wait : ∃ r, s.find? e.key = some r ∧ r.paused = true ∧ r.awaits e.eventType = true
    ∧ r.ready = false ∧ r.isObserved = false

namespace RecordStore

variable {s : RecordStore} {key : String}

theorem confirmed_empty (key : String) : empty.Confirmed key := by
  intro r hr
  cases hr

theorem Confirmed.save (h : s.Confirmed key) (e : Record) : (s.save e).Confirmed key := by
  intro q hq hready
  rw [find?_save] at hq
  split at hq
  · obtain rfl := Option.some.inj hq
    subst key
    cases hr : s.find? e.key with
    | none =>
        rw [hr] at hready
        cases hready
    | some r =>
        rw [hr] at hready
        exact (r.grows_merge e).observed (h r hr ((r.merge_ready e).symm.trans hready))
  · exact h q hq hready

theorem Confirmed.markPaused (h : s.Confirmed key) (context : Record) (now : Instant) :
    (s.markPaused context now).Confirmed key := by
  intro q hq hready
  rw [find?_markPaused] at hq
  split at hq
  · obtain rfl := Option.some.inj hq
    subst key
    cases hr : s.find? context.key with
    | none =>
        rw [hr] at hready
        cases hready
    | some r =>
        rw [hr] at hready
        exact h r hr hready
  · exact h q hq hready

theorem Confirmed.markReady (h : s.Confirmed key) {k : String}
    (hk : k = key → ∀ r, s.find? k = some r → r.isObserved = true) :
    (s.markReady k).2.Confirmed key := by
  intro q hq hready
  rw [find?_markReady] at hq
  split at hq
  · subst key
    obtain ⟨r, hr, rfl⟩ := Option.map_eq_some_iff.mp hq
    exact hk rfl r hr
  · exact h q hq hready

/-- A wait that is there once an event has been saved was there before. A save starts no wait,
whatever the event claims. -/
theorem wait_of_save {e r : Record} (hr : (s.save e).find? e.key = some r)
    (hp : r.paused = true) : ∃ q, s.find? e.key = some q ∧ q.paused = true ∧ r = q.merge e := by
  rw [find?_save, if_pos rfl] at hr
  obtain rfl := Option.some.inj hr
  cases hq : s.find? e.key with
  | none =>
      rw [hq] at hp
      cases hp
  | some q =>
      rw [hq] at hp
      exact ⟨q, rfl, (q.merge_paused e).symm.trans hp, rfl⟩

end RecordStore

/-! ## Accepting -/

section

variable {s t : State} {g : Engine} {e : Record} {o : Outcome} {key : String}

/-- An event that does not feign an observation makes a wait ready only with one: either it has a
time itself, or the wait held an observation before. -/
theorem Engine.Accepted.confirmed (h : g.Accepted .none e s o t) (hs : s.events.Confirmed key)
    (he : e.key = key → ¬ e.Feigns s.events) : t.events.Confirmed key := by
  cases h with
  | ignored => exact hs
  | settled hkey hpersisted hsettled =>
      cases hpersisted with
      | failed hx => cases hx
      | saved =>
          have hsaved : (s.saved e).events.Confirmed key := hs.save e
          cases hsettled with
          | resumeReady hr hp ha hnot =>
              rw [State.resumed_events]
              refine hsaved.markReady fun hk r hr' => ?_
              obtain rfl := Option.some.inj (hr.symm.trans hr')
              obtain ⟨q, hq, hqp, rfl⟩ := RecordStore.wait_of_save hr hp
              rw [Record.merge_awaits_of_paused _ hqp] at ha
              rw [Record.merge_isObserved_of_awaits ha]
              by_contra hunobserved
              obtain ⟨htime, hobs⟩ := Bool.or_eq_false_iff.mp (Bool.eq_false_iff.mpr hunobserved)
              have hfeigns : e.Feigns s.events :=
                ⟨hkey, htime, q, hq, hqp, ha, (q.merge_ready e).symm.trans hnot, hobs⟩
              exact he hk hfeigns
          | _ => exact hsaved

/-- A feigned observation makes the wait ready with nothing observed. -/
theorem Record.Feigns.accepted (h : e.Feigns s.events) (g : Engine) :
    ¬ (s.accepted g e).events.Confirmed e.key := by
  intro hconfirmed
  obtain ⟨q, hq, hp, ha, hnot, hobs⟩ := h.wait
  have hr : (s.saved e).events.find? e.key = some (q.merge e) := by
    rw [State.saved, RecordStore.find?_save, if_pos rfl, hq]
  have hmp : (q.merge e).paused = true := (q.merge_paused e).trans hp
  have hma : (q.merge e).awaits e.eventType = true :=
    (Record.merge_awaits_of_paused e hp _).trans ha
  have hmnot : (q.merge e).ready = false := (q.merge_ready e).trans hnot
  obtain ⟨o, hway⟩ := s.accepted_cases g e
  generalize s.accepted g e = t at hway hconfirmed
  cases hway with
  | ignored hblank => exact absurd (h.keyed.symm.trans hblank) (by decide)
  | settled _ hpersisted hsettled =>
      cases hpersisted with
      | failed hx => cases hx
      | saved =>
          cases hsettled with
          | lookupFailed hx => cases hx
          | markFailed _ _ _ _ hx => cases hx
          | absent hnone => cases hr.symm.trans hnone
          | unpaused hr' hp' =>
              obtain rfl := Option.some.inj (hr.symm.trans hr')
              exact absurd (hmp.symm.trans hp') (by decide)
          | mismatch hr' _ ha' =>
              obtain rfl := Option.some.inj (hr.symm.trans hr')
              exact absurd (hma.symm.trans ha') (by decide)
          | alreadyReady hr' _ _ hready =>
              obtain rfl := Option.some.inj (hr.symm.trans hr')
              exact absurd (hmnot.symm.trans hready) (by decide)
          | resumeReady =>
              have hflipped : ((s.saved e).resumed g e).events.find? e.key
                  = some { q.merge e with ready := true } := by
                rw [State.resumed_events, RecordStore.find?_markReady, if_pos rfl, hr]
                rfl
              have hseen : (q.merge e).isObserved = true :=
                hconfirmed { q.merge e with ready := true } hflipped rfl
              rw [Record.merge_isObserved_of_awaits ha, h.timeless, hobs] at hseen
              exact absurd hseen (by decide)

/-- What a visit hands to the engine has a time, since it was looked up as an observation. -/
theorem Poller.Visited.confirmed {p : Poller} {acc acc' : Tally} {wait : Record}
    (h : p.Visited .none acc wait s acc' t) (hs : s.events.Confirmed key) :
    t.events.Confirmed key := by
  cases h with
  | ready _ h => cases h <;> exact hs
  | lookupFailed | nothing => exact hs
  | delegated _ hc h =>
      refine h.confirmed hs fun _ hfeigns => ?_
      obtain ⟨r, -, -, hobs, rfl, -⟩ := RecordStore.candidate?_some hc
      exact absurd (hobs.symm.trans hfeigns.timeless) (by decide)

/-- Nothing but an accepted event makes a record ready without an observation. -/
theorem State.confirmed_perform {a : Activity} (hs : s.events.Confirmed key)
    (ha : ∀ g e, a = .accept g e → e.key = key → ¬ e.Feigns s.events) :
    (s.perform a).events.Confirmed key := by
  cases a with
  | save e => exact hs.save e
  | accept g e => exact (Engine.leads_accept .none g e s).run.confirmed hs (ha g e rfl)
  | pause context => exact hs.markPaused context _
  | poll p =>
      have hrun := (Poller.leads_sweep (x := .none) (p := p)
        (J := fun _ _ t => t.events.Confirmed key) (fun _ _ _ _ _ _ h hv => hv.confirmed h) hs).run
      rcases hrun with h | ⟨h, -⟩
      · exact h
      · cases h
  | verify q =>
      have hv := (Verifier.leads_verify .none q s).run
      change (run State.answer (Verifier.verify q) s).2.events.Confirmed key
      generalize (run State.answer (Verifier.verify q) s).1 = v at hv
      generalize (run State.answer (Verifier.verify q) s).2.events = w at hv ⊢
      cases hv with
      | notReady => exact hs.markPaused _ _
      | _ => exact hs
  | wait ms => exact hs

end

/-! ## Events on their way -/

/-- Who is subscribed to a bus: an engine, or somebody with no hand in the stores, who may fail or
crash. -/
inductive Listener
  | engine (g : Engine)
  | other (name : String) (delivery : Delivery)

namespace Listener

def engine? : Listener → Option Engine
  | .engine g => some g
  | .other _ _ => none

def conduct : Bus.Conduct (StateM State) Listener where
  name
    | .engine _ => Transport.engineName
    | .other name _ => name
  handle
    | .engine g, e => fun s => (.accepted, s.accepted g e)
    | .other _ delivery, _ => pure delivery
  note _ := pure ()

theorem state_deliver (e : Record) (r : PublishCount) (subscribers : List (Subscription × Listener))
    (s : State) : (Bus.deliver conduct e r subscribers s).2
      = (subscribers.filterMap (·.2.engine?)).foldl (fun t g => t.accepted g e) s := by
  induction subscribers generalizing r s with
  | nil => rfl
  | cons m rest ih =>
      obtain ⟨id, c⟩ := m
      have hnote : ∀ (complaint : Option LogEntry) (t : State),
          complaint.elim t (fun entry => (conduct.note entry t).2) = t := by
        intro complaint t
        cases complaint <;> rfl
      rw [Bus.deliver_cons, hnote, ih]
      cases c <;> rfl

end Listener

/-- Of several engines the first takes the event in, and nothing is left for the others: what it has
done once it does no more. -/
theorem State.foldl_accepted (e : Record) (engines : List Engine) (s : State) :
    engines.foldl (fun t g => t.accepted g e) s
      = (engines.head?.elim s fun g => s.accepted g e) := by
  cases engines with
  | nil => rfl
  | cons g rest =>
      change rest.foldl _ (s.accepted g e) = s.accepted g e
      induction rest with
      | nil => rfl
      | cons g' rest ih => rw [List.foldl_cons, (s.took_accepted g e).accepted_eq g', ih]

/-- What can happen to a process that also sends events over transports, of either kind. -/
inductive Occurrence
  | act (a : Activity)
  | direct (g : Engine) (e : Record)
  | publish (bus : Bus Listener) (e : Record)

/-- The event that an engine takes in, and the engine. On a bus with several engines it is the first
of them that decides. -/
def Occurrence.intake? : Occurrence → Option (Engine × Record)
  | .act (.accept g e) | .direct g e => some (g, e)
  | .publish bus e => (bus.subscribers.filterMap (·.2.engine?)).head?.map (·, e)
  | .act _ => none

namespace State

def occur (s : State) : Occurrence → State
  | .act a => s.perform a
  | .direct g e => (run answer (Transport.sendDirect g e) s).2
  | .publish bus e => (bus.publish Listener.conduct e s).2

def occurAll (s : State) (os : List Occurrence) : State := os.foldl occur s

theorem occurAll_append (s : State) (os ps : List Occurrence) :
    s.occurAll (os ++ ps) = (s.occurAll os).occurAll ps := List.foldl_append ..

theorem occur_publish (s : State) (bus : Bus Listener) (e : Record) :
    s.occur (.publish bus e)
      = (bus.subscribers.filterMap (·.2.engine?)).head?.elim s fun g => s.accepted g e := by
  rw [← foldl_accepted]
  change (bus.publish Listener.conduct e s).2 = _
  unfold Bus.publish
  cases hsub : bus.subscribers with
  | nil => rfl
  | cons m rest => exact Listener.state_deliver e ⟨0, 0⟩ (m :: rest) s

/-- An engine gets every event in the same way, however it was sent. So what is said of `accept` is
said of both transports. -/
theorem occur_intake {o : Occurrence} {g : Engine} {e : Record} (h : o.intake? = some (g, e))
    (s : State) : s.occur o = s.accepted g e := by
  cases o with
  | act a =>
      cases a with
      | accept g' e' =>
          obtain ⟨rfl, rfl⟩ := Prod.mk.inj (Option.some.inj h)
          rfl
      | _ => cases h
  | direct g' e' =>
      obtain ⟨rfl, rfl⟩ := Prod.mk.inj (Option.some.inj h)
      exact s.run_sendDirect _ _
  | publish bus d =>
      obtain ⟨g', hg, heq⟩ := Option.map_eq_some_iff.mp h
      obtain ⟨rfl, rfl⟩ := Prod.mk.inj heq
      rw [occur_publish, hg]
      rfl

theorem confirmed_occur {s : State} {o : Occurrence} {key : String} (hs : s.events.Confirmed key)
    (ho : ∀ g e, o.intake? = some (g, e) → e.key = key → ¬ e.Feigns s.events) :
    (s.occur o).events.Confirmed key := by
  have intake : ∀ g e, o.intake? = some (g, e) → (s.occur o).events.Confirmed key := by
    intro g e h
    obtain ⟨_, haccepted⟩ := s.accepted_cases g e
    rw [occur_intake h]
    exact haccepted.confirmed hs (ho g e h)
  cases o with
  | act a =>
      change (s.perform a).events.Confirmed key
      refine confirmed_perform hs fun g e ha => ?_
      subst ha
      exact ho g e rfl
  | direct g e => exact intake g e rfl
  | publish bus e =>
      cases hg : (bus.subscribers.filterMap (·.2.engine?)).head? with
      | none =>
          rw [occur_publish, hg]
          exact hs
      | some g => exact intake g e (by rw [Occurrence.intake?, hg]; rfl)

end State

/-! ## When readiness can be trusted -/

/-- **When ready means observed.** In a run from an empty store, what is kept under a key is never
ready without an observation if and only if no engine, by whatever way, is ever given an event
under the key that has no time and ends the wait there before anything was observed for it. -/
theorem ready_observed_iff {s : State} (hs : s.events = .empty) (os : List Occurrence)
    (key : String) :
    (∀ before, before <+: os → (s.occurAll before).events.Confirmed key)
      ↔ (∀ (before : List Occurrence) (o : Occurrence), before ++ [o] <+: os →
        ∀ g e, o.intake? = some (g, e) → e.key = key →
          ¬ e.Feigns (s.occurAll before).events) := by
  constructor
  · rintro h before o hpre g e hintake rfl hfeigns
    refine hfeigns.accepted g ?_
    rw [← State.occur_intake hintake]
    have hafter := h _ hpre
    rw [State.occurAll_append] at hafter
    exact hafter
  · intro h before hpre
    induction before using List.reverseRecOn with
    | nil =>
        rw [State.occurAll, List.foldl_nil, hs]
        exact RecordStore.confirmed_empty key
    | append_singleton before o ih =>
        rw [State.occurAll_append]
        have hbefore := ih ((List.prefix_append before [o]).trans hpre)
        exact State.confirmed_occur hbefore (h before o hpre)

def bareWait : Record := .placeholder "ORD1::SHIPPED" "ORD1" (some "SHIPPED") default

/-- The wait is left behind, and the shipment is sent to an engine over a bus, behind a subscriber
that fails. -/
def shipmentSent : List Occurrence :=
  [.act (.pause bareWait),
    .publish ⟨[(⟨0⟩, .other "audit" (.failed "full")), (⟨1⟩, .engine ⟨none⟩)], 2⟩
      (.observed "ORD1" "SHIPPED" .null default)]

theorem shipment_sent_confirmed : ∃ r,
    ((State.initial fun _ => ⟨0, 1, fun _ => 0⟩).occurAll shipmentSent).events.find? "ORD1::SHIPPED"
      = some r ∧ r.ready = true ∧ r.isObserved = true := by
  have honest : ∀ before o, before ++ [o] <+: shipmentSent → ∀ g e, o.intake? = some (g, e) →
      e.key = "ORD1::SHIPPED" →
      ¬ e.Feigns ((State.initial fun _ => ⟨0, 1, fun _ => 0⟩).occurAll before).events := by
    intro before o hpre g e hintake _ hfeigns
    have ho : o ∈ shipmentSent := hpre.subset (by simp)
    simp only [shipmentSent, List.mem_cons, List.not_mem_nil, or_false] at ho
    rcases ho with rfl | rfl
    · cases hintake
    · obtain ⟨-, rfl⟩ := Prod.mk.inj (Option.some.inj hintake)
      exact absurd hfeigns.timeless (by decide)
  have hready : ∃ r, ((State.initial fun _ => ⟨0, 1, fun _ => 0⟩).occurAll
      shipmentSent).events.find? "ORD1::SHIPPED" = some r ∧ r.ready = true :=
    (Option.any_eq_true _ _).mp (by rfl)
  obtain ⟨r, hr, hflag⟩ := hready
  have hconfirmed := (ready_observed_iff rfl shipmentSent _).mpr honest _ (List.prefix_refl _)
  exact ⟨r, hr, hflag, hconfirmed r hr hflag⟩

/-- A wait that is handed to an engine ends itself: it is saved, found under its own key, and made
ready with nothing observed. -/
theorem wait_ended_by_itself : ¬ ∀ (s : State) (os : List Occurrence), s.events = .empty →
    ∀ key r, (s.occurAll os).events.find? key = some r → r.ready = true → r.isObserved = true := by
  intro h
  have hready : ∃ r, ((State.initial fun _ => ⟨0, 1, fun _ => 0⟩).occurAll
      [.act (.pause bareWait), .direct ⟨none⟩ bareWait]).events.find? "ORD1::SHIPPED" = some r
      ∧ (r.ready && !r.isObserved) = true :=
    (Option.any_eq_true _ _).mp (by rfl)
  obtain ⟨r, hr, hflags⟩ := hready
  obtain ⟨hflag, hobs⟩ := (Bool.and_eq_true _ _).mp hflags
  rw [h _ _ rfl _ r hr hflag] at hobs
  exact absurd hobs (by decide)

end Rendezvous
