import Mathlib.Data.List.Nodup
import Rendezvous.Progress
import Rendezvous.Proofs.Pool
import Rendezvous.Proofs.Recording

/-!
# Scenarios do not contend

A change of what is known about a scenario reads the whole state, changes it and saves it whole, and
any number of requests of others may fall in between. For scenarios with different keys that makes
no difference (`Progress.runs_as_alone`): under any schedule, and whatever calls fail, what is kept
about a scenario and what is read of it are the same as if nobody else had been there.

All that a procedure does about one scenario goes by what is kept under its key, and by the clock
(`Proc.Minds`). So the run of many is followed side by side with that of one alone
(`Pool.Mirrors`): a step of the one is the same step in both, and a step of any other is none.
-/

namespace Rendezvous

open Proc

/-! ## Minding one key -/

/-- The request is about what is kept under `key`, or it reads the clock or logs. Clearing all
scenarios minds no key. -/
def Request.Minds (key : String) : Request → Prop
  | .scenarios (.find k) | .scenarios (.delete k) => k = key
  | .scenarios (.save st) => st.key = key
  | .now | .note _ => True
  | _ => False

/-- An answer as a store gives it that keeps every state under the key it carries. A procedure that
saves what it was given needs this to stay with its key. -/
def Request.Fitting (key : String) : (r : Request) → r.Answer → Prop
  | .scenarios (.find _), found => ∀ st, found = .ok (some st) → st.key = key
  | _, _ => True

namespace Proc

variable {α β : Type} {key : String}

/-- All requests of the procedure mind `key`, as long as the answers fit. What it does then depends
on that key and on the clock alone. -/
def Minds (key : String) : Proc α → Prop
  | .done _ => True
  | .ask r next => r.Minds key ∧ ∀ x, r.Fitting key x → Minds key (next x)

theorem minds_pure (a : α) : (pure a : Proc α).Minds key := trivial

theorem minds_bind {f : α → Proc β} (hf : ∀ a, (f a).Minds key) :
    ∀ {p : Proc α}, p.Minds key → (p >>= f).Minds key
  | .done a, _ => hf a
  | .ask _ _, ⟨hr, h⟩ => ⟨hr, fun x hx => minds_bind hf (h x hx)⟩

theorem minds_note (entry : LogEntry) : (note entry).Minds key := ⟨trivial, fun _ _ => trivial⟩

end Proc

/-! ## What others see of a request -/

namespace State

/-- Who minds `key` cannot tell the two states apart, now or later. -/
structure Agree (key : String) (s t : State) : Prop where
  kept : s.scenarios.find? key = t.scenarios.find? key
  clock : s.clock = t.clock

variable {key k : String} {s t u : State}

theorem Agree.trans (h : s.Agree key t) (h' : t.Agree key u) : s.Agree key u :=
  ⟨h.kept.trans h'.kept, h.clock.trans h'.clock⟩

theorem Agree.wait (h : s.Agree key t) (ms : Nat) : (s.wait ms).Agree key (t.wait ms) :=
  ⟨h.kept, congrArg (· + ms) h.clock⟩

variable {r : Request}

/-- A request is answered by what is kept under the key it minds, and by the clock. -/
theorem Agree.reply (h : s.Agree key t) (hr : r.Minds key) (x : Exposure) (fault : Option Fault) :
    (State.reply x fault r s).1 = (State.reply x fault r t).1
      ∧ (State.reply x fault r s).2.Agree key (State.reply x fault r t).2 := by
  cases r with
  | scenarios c =>
      simp only [State.reply]
      cases fault.filter fun _ => x.scenarios with
      | some f => exact ⟨rfl, h⟩
      | none =>
          cases c with
          | find k =>
              obtain rfl : k = key := hr
              exact ⟨congrArg Except.ok h.kept, h⟩
          | save st =>
              refine ⟨rfl, ?_, h.clock⟩
              change (s.scenarios.save st).find? key = (t.scenarios.save st).find? key
              rw [ScenarioStore.find?_save, ScenarioStore.find?_save, h.kept]
          | delete k =>
              refine ⟨rfl, ?_, h.clock⟩
              change (s.scenarios.delete k).find? key = (t.scenarios.delete k).find? key
              rw [ScenarioStore.find?_delete, ScenarioStore.find?_delete, h.kept]
          | clear => exact hr.elim
  | now => exact ⟨congrArg (Instant.ofMillis origin) h.clock, h⟩
  | note => exact ⟨rfl, h⟩
  | _ => exact hr.elim

/-- A request that minds another key is not noticed. -/
theorem agree_reply (hr : r.Minds k) (hne : key ≠ k) (x : Exposure) (fault : Option Fault)
    (s : State) : (reply x fault r s).2.Agree key s := by
  cases r with
  | scenarios c =>
      simp only [reply]
      cases fault.filter fun _ => x.scenarios with
      | some f => exact ⟨rfl, rfl⟩
      | none =>
          cases c with
          | find => exact ⟨rfl, rfl⟩
          | save st =>
              obtain rfl : st.key = k := hr
              exact ⟨(s.scenarios.find?_save st key).trans (if_neg hne), rfl⟩
          | delete j =>
              obtain rfl : j = k := hr
              exact ⟨(s.scenarios.find?_delete j key).trans (if_neg hne), rfl⟩
          | clear => exact hr.elim
  | now | note => exact ⟨rfl, rfl⟩
  | _ => exact hr.elim

theorem fitting_reply (hr : r.Minds k) (hs : s.scenarios.Keyed) (x : Exposure)
    (fault : Option Fault) :
    r.Fitting k (reply x fault r s).1 ∧ (reply x fault r s).2.scenarios.Keyed := by
  cases r with
  | scenarios c =>
      simp only [reply]
      cases fault.filter fun _ => x.scenarios with
      | some f => cases c <;> exact ⟨by simp [Request.Fitting], hs⟩
      | none =>
          cases c with
          | find j =>
              obtain rfl : j = k := hr
              exact ⟨fun st hst => hs j st (Except.ok.inj hst), hs⟩
          | save st => exact ⟨trivial, hs.save st⟩
          | delete j => exact ⟨trivial, hs.delete j⟩
          | clear => exact hr.elim
  | now | note => exact ⟨trivial, hs⟩
  | _ => exact hr.elim

end State

namespace Proc

variable {α : Type} {p : Proc α} {key k : String} {s t : State}

theorem Minds.advance (h : p.Minds key) (hs : s.scenarios.Keyed) (x : Exposure)
    (fault : Option Fault) :
    (advance x fault p s).1.Minds key ∧ (advance x fault p s).2.scenarios.Keyed := by
  cases p with
  | done a => exact ⟨trivial, hs⟩
  | ask r next =>
      obtain ⟨hfit, hkeyed⟩ := State.fitting_reply h.1 hs x fault
      exact ⟨h.2 _ hfit, hkeyed⟩

theorem Minds.advance_agree (h : p.Minds key) (hst : s.Agree key t) (x : Exposure)
    (fault : Option Fault) : (Proc.advance x fault p s).1 = (Proc.advance x fault p t).1
      ∧ (Proc.advance x fault p s).2.Agree key (Proc.advance x fault p t).2 := by
  cases p with
  | done a => exact ⟨rfl, hst⟩
  | ask r next =>
      obtain ⟨hanswer, hagree⟩ := hst.reply h.1 x fault
      exact ⟨congrArg next hanswer, hagree⟩

theorem Minds.advance_apart (h : p.Minds k) (hne : key ≠ k) (x : Exposure)
    (fault : Option Fault) (s : State) : (Proc.advance x fault p s).2.Agree key s := by
  cases p with
  | done a => exact ⟨rfl, rfl⟩
  | ask r next => exact State.agree_reply h.1 hne x fault s

end Proc

/-! ## One among many, and alone -/

/-- What a decision is to the thread `i` if it is the only one: its steps, and the time that
passes. -/
def Choice.own? (i : Nat) : Choice → Option Choice
  | .step j fault => if j = i then some (.step 0 fault) else none
  | .wait ms => some (.wait ms)

namespace Pool

variable {α : Type} {keys : List String} {i : Nat} {key : String}

/-- Each thread of `w` minds its key, and the thread `i` is in `w` as it is in `v`, where it is
alone. This is what every step of the pool keeps. -/
structure Mirrors (keys : List String) (i : Nat) (key : String) (w v : Pool (Proc α)) : Prop where
  keyed : w.state.scenarios.Keyed
  minds : ∀ (j : Nat) (p : Proc α), w.threads[j]? = some p → ∃ k, keys[j]? = some k ∧ p.Minds k
  thread : ∃ p, w.threads[i]? = some p ∧ v.threads = [p]
  agree : w.state.Agree key v.state

variable {w v : Pool (Proc α)} {x : Exposure}

theorem Mirrors.wait (h : Mirrors keys i key w v) (ms : Nat) :
    Mirrors keys i key (w.go (advance x) (.wait ms)) (v.go (advance x) (.wait ms)) :=
  ⟨h.keyed, h.minds, h.thread, h.agree.wait ms⟩

/-- Its own step a thread makes alone as well, with the same answer and the same effect on its
key. -/
theorem Mirrors.step_own (h : Mirrors keys i key w v) (hkey : keys[i]? = some key)
    (fault : Option Fault) :
    Mirrors keys i key (w.go (advance x) (.step i fault)) (v.go (advance x) (.step 0 fault)) := by
  obtain ⟨p, hp, halone⟩ := h.thread
  obtain ⟨k, hk, hminds⟩ := h.minds i p hp
  obtain rfl : k = key := Option.some.inj (hk.symm.trans hkey)
  have hw : w.go (advance x) (.step i fault)
      = ⟨(advance x fault p w.state).2, w.threads.set i (advance x fault p w.state).1⟩ := by
    rw [go, hp]
  have hv : v.go (advance x) (.step 0 fault)
      = ⟨(advance x fault p v.state).2, [(advance x fault p v.state).1]⟩ := by
    rw [go, halone]
    rfl
  obtain ⟨hnext, hkeyed⟩ := hminds.advance h.keyed x fault
  obtain ⟨hsame, hagree⟩ := hminds.advance_agree h.agree x fault
  rw [hw, hv]
  refine ⟨hkeyed, fun j q hq => ?_, ⟨_, ?_, congrArg (fun q => [q]) hsame.symm⟩, hagree⟩
  · rcases getElem?_set_cases hq with ⟨rfl, rfl⟩ | ⟨-, hj⟩
    · exact ⟨k, hk, hnext⟩
    · exact h.minds j q hj
  · exact List.getElem?_set_self (List.getElem?_eq_some_iff.mp hp).1

/-- A step of another is none for a thread that is alone. It minds another key, and a state is kept
under its own key only. -/
theorem Mirrors.step_other (h : Mirrors keys i key w v) (hkey : keys[i]? = some key)
    (hapart : keys.Nodup) {j : Nat} (hj : j ≠ i) (fault : Option Fault) :
    Mirrors keys i key (w.go (advance x) (.step j fault)) v := by
  rw [go]
  cases hq : w.threads[j]? with
  | none => exact h
  | some q =>
      obtain ⟨k, hk, hminds⟩ := h.minds j q hq
      have hne : key ≠ k := by
        rintro rfl
        obtain ⟨hlt, -⟩ := List.getElem?_eq_some_iff.mp hk
        exact hj ((List.getElem?_inj hlt hapart).mp (hk.trans hkey.symm))
      obtain ⟨hnext, hkeyed⟩ := hminds.advance h.keyed x fault
      obtain ⟨p, hp, halone⟩ := h.thread
      refine ⟨hkeyed, fun m r hr => ?_, ⟨p, ?_, halone⟩, ?_⟩
      · rcases getElem?_set_cases hr with ⟨rfl, rfl⟩ | ⟨-, hm⟩
        · exact ⟨k, hk, hnext⟩
        · exact h.minds m r hm
      · exact (List.getElem?_set_ne hj).trans hp
      · exact (hminds.advance_apart hne x fault w.state).trans h.agree

/-- The thread remains in the pool as it is alone, under every schedule. By induction on the
schedule, where steps of others are left out. -/
theorem Mirrors.run (hkey : keys[i]? = some key) (hapart : keys.Nodup)
    (schedule : List Choice) : ∀ {w v : Pool (Proc α)}, Mirrors keys i key w v →
      Mirrors keys i key (w.run (advance x) schedule)
        (v.run (advance x) (schedule.filterMap (Choice.own? i))) := by
  induction schedule with
  | nil => exact fun h => h
  | cons c cs ih =>
      intro w v h
      cases c with
      | wait ms => exact ih (h.wait ms)
      | step j fault =>
          by_cases hj : j = i
          · subst hj
            have hown : Choice.own? j (.step j fault) = some (.step 0 fault) := if_pos rfl
            rw [List.filterMap_cons_some hown]
            exact ih (h.step_own hkey fault)
          · have hown : Choice.own? i (.step j fault) = none := if_neg hj
            rw [List.filterMap_cons_none hown]
            exact ih (h.step_other hkey hapart hj fault)

end Pool

/-! ## What is done about a scenario -/

namespace Progress

/-- Something to do about a scenario: to change what is known about it, or to ask for some of it. -/
inductive Item
  | mark (step : String) (status : StepStatus) (data : Option Capture)
  | setStatus (status : ScenarioStatus)
  | clear
  | succeeded (step : String)
  | data (step : String)

/-- What comes of an item for the one who asked. Marks and statuses bring nothing back, whether they
succeed or fail. -/
inductive Finding
  | cleared (result : Except Fault Unit)
  | succeeded (step : String) (answer : Bool)
  | data (step : String) (answer : Capture)

def Item.proc (sc : Scenario) : Item → Proc (Option Finding)
  | .mark step status captured => do
    Progress.mark sc step status captured
    return none
  | .setStatus status => do
    Progress.setStatus sc status
    return none
  | .clear => return some (.cleared (← Progress.clear sc))
  | .succeeded step => return some (.succeeded step (← Progress.succeeded sc step))
  | .data step => return some (.data step (← Progress.data sc step))

/-- What is to be done about scenarios of one key, one thing after the other. That all items are of
the key is part of it. -/
structure Agenda where
  key : String
  items : List (Scenario × Item)
  own : ∀ item ∈ items, item.1.key = key

namespace Agenda

def ofScenario (sc : Scenario) (items : List Item) : Agenda where
  key := sc.key
  items := items.map (sc, ·)
  own := by simp

/-- Does the items in turn and adds what is found to `found`. A fault in one does not keep the next
from being done. -/
def proceed : List Finding → List (Scenario × Item) → Proc (List Finding)
  | found, [] => return found
  | found, (sc, item) :: rest => do proceed (found ++ (← item.proc sc).toList) rest

def proc (a : Agenda) : Proc (List Finding) := proceed [] a.items

end Agenda

theorem minds_load (sc : Scenario) : (load sc).Minds sc.key :=
  minds_bind (p := scenarios (.find sc.key)) (fun found => by
    cases found with
    | ok state => trivial
    | error f => exact ⟨trivial, fun _ _ => trivial⟩) ⟨rfl, fun _ _ => trivial⟩

/-- What was found under a key is saved under the key again. -/
theorem minds_update {sc : Scenario} {change : ScenarioState → Instant → ScenarioState}
    (hkey : ∀ st time, (change st time).key = st.key) : (update sc change).Minds sc.key := by
  refine ⟨rfl, fun found hfound => ?_⟩
  cases found with
  | error f => trivial
  | ok known =>
      refine ⟨trivial, fun time _ => ⟨?_, fun saved _ => by cases saved <;> trivial⟩⟩
      refine (hkey _ time).trans ?_
      cases known with
      | none => rfl
      | some st => exact hfound st rfl

theorem minds_item (sc : Scenario) : ∀ item : Item, (item.proc sc).Minds sc.key
  | .mark step status captured => by
      refine minds_bind (fun _ => minds_pure _) (minds_bind (fun result => ?_)
        (minds_update fun _ _ => rfl))
      cases result <;> exact minds_note _
  | .setStatus status => by
      refine minds_bind (fun _ => minds_pure _) (minds_bind (fun result => ?_)
        (minds_update fun _ _ => rfl))
      cases result with
      | ok st => trivial
      | error f => exact minds_note _
  | .clear => minds_bind (p := scenarios (.delete sc.key)) (fun _ => minds_pure _)
      ⟨rfl, fun _ _ => trivial⟩
  | .succeeded step => minds_bind (fun _ => minds_pure _)
      (minds_bind (fun _ => minds_pure _) (minds_load sc))
  | .data step => minds_bind (fun _ => minds_pure _)
      (minds_bind (fun _ => minds_pure _) (minds_load sc))

theorem Agenda.minds_proceed {key : String} : ∀ (items : List (Scenario × Item)),
    (∀ item ∈ items, item.1.key = key) → ∀ found, (proceed found items).Minds key
  | [], _, _ => trivial
  | (sc, item) :: rest, hown, _ => by
      obtain rfl : sc.key = key := hown (sc, item) List.mem_cons_self
      have hrest := minds_proceed rest fun i hi => hown i (List.mem_cons_of_mem _ hi)
      exact minds_bind (fun _ => hrest _) (minds_item sc item)

/-- **Scenarios do not contend.** However the requests of agendas with different keys mingle, and
whichever of their calls fail: what is kept under the key of one of them, and how far it has come
with which findings, is at any time as if it had been alone, with the same faults and the same
clock. -/
theorem runs_as_alone (x : Exposure) {s : State} (hs : s.scenarios.Keyed) {agendas : List Agenda}
    (hapart : (agendas.map (·.key)).Nodup) {i : Nat} {a : Agenda} (hi : agendas[i]? = some a)
    (schedule : List Choice) :
    let together := (Pool.mk s (agendas.map Agenda.proc)).run (advance x) schedule
    let alone := (Pool.mk s [a.proc]).run (advance x) (schedule.filterMap (Choice.own? i))
    together.state.scenarios.find? a.key = alone.state.scenarios.find? a.key
      ∧ together.threads[i]? = alone.threads[0]? := by
  have hstart : Pool.Mirrors (agendas.map (·.key)) i a.key
      ⟨s, agendas.map Agenda.proc⟩ ⟨s, [a.proc]⟩ := by
    refine ⟨hs, fun j p hp => ?_, ⟨a.proc, ?_, rfl⟩, ⟨rfl, rfl⟩⟩
    · obtain ⟨b, hb, rfl⟩ := Option.map_eq_some_iff.mp ((List.getElem?_map ..).symm.trans hp)
      exact ⟨b.key, by rw [List.getElem?_map, hb]; rfl, Agenda.minds_proceed b.items b.own []⟩
    · rw [List.getElem?_map, hi]
      rfl
  have hkey : (agendas.map (·.key))[i]? = some a.key := by
    rw [List.getElem?_map, hi]
    rfl
  obtain ⟨p, hp, halone⟩ := (hstart.run (x := x) hkey hapart schedule).thread
  refine ⟨(hstart.run (x := x) hkey hapart schedule).agree.kept, ?_⟩
  rw [hp, halone]
  rfl

/-- A shipment is marked and what it captured is read, while a payment is marked, by two parties
that know nothing of each other. -/
def shippingAndPaying : List Agenda :=
  [.ofScenario ⟨"Shipping", "", none⟩
      [.mark "ship" .success (some (.ofList [("carrier", "ups")])), .data "ship"],
    .ofScenario ⟨"Paying", "", none⟩ [.mark "pay" .success none]]

/-- A schedule in which both read before either writes, and the write of the payment fails. -/
def crossing : List Choice :=
  [.step 0 none, .step 1 none, .step 1 none, .wait 1000, .step 0 none,
    .step 1 (some ⟨"disk full"⟩), .step 0 none, .step 1 none, .step 0 none, .step 0 none]

theorem shipping_undisturbed :
    ((Pool.mk (State.initial fun _ => ⟨0, 1, fun _ => 0⟩)
        (shippingAndPaying.map Agenda.proc)).run (advance .all) crossing).threads[0]?
      = some (.done [.data "ship" (.ofList [("carrier", "ups")])]) := by
  have hkeyed : (State.initial fun _ => ⟨0, 1, fun _ => 0⟩).scenarios.Keyed :=
    ScenarioStore.keyed_empty
  have hapart : (shippingAndPaying.map (·.key)).Nodup := by decide
  obtain ⟨-, hthread⟩ := runs_as_alone .all hkeyed hapart (i := 0) rfl crossing
  exact hthread.trans rfl

end Progress

end Rendezvous
