import Mathlib.Data.List.Induction
import Rendezvous.Proofs.Flipping

/-!
# What a wait awaits when it is made ready

A call of `accept` looks a wait up, finds that it awaits the type of the event, and makes it ready
with a call of its own. The second call does not look at the type again. In between, a pause may
have put another type on the wait. `retyped` reads off the calls that were answered since the call
looked, which type that is, and `awaits_at_flip_iff` says that nothing else can come between: the
wait still awaits the event exactly if the last of these types, if there is one, is that of the
event. It need not be (`flip_mismatched`).
-/

namespace Rendezvous

open Proc

/-! ## Calls that were answered -/

/-- The type that a pause of the wait under `key` asks for. A pause without a type leaves the one
that is there. -/
def EventCall.retypes? (key : String) : EventCall → Option String
  | .markPaused context => if context.key = key then context.eventType else none
  | _ => none

def EventCall.looks (key : String) : EventCall → Bool
  | .find k => k = key
  | _ => false

def Request.answered? : Option Fault → Request → Option EventCall
  | none, .events c => some c
  | _, _ => none

namespace Thread

variable {α : Type}

def request? : Thread α → Option Request
  | ⟨_, .outside (.ask r _)⟩ | ⟨_, .inside _ (.ask r _) _⟩ => some r
  | _ => none

/-- The call that the thread makes next, unless a fault befalls it or it makes another request. -/
def answered? (t : Thread α) (fault : Option Fault) : Option EventCall :=
  t.request?.bind (Request.answered? fault)

end Thread

/-- A call on the record store that was answered, and the thread that made it. -/
structure Deed where
  thread : Nat
  call : EventCall

namespace Pool

variable {α : Type}

def deed? (w : Pool (Thread α)) : Choice → Option Deed
  | .step i fault => (w.threads[i]?.bind (·.answered? fault)).map (Deed.mk i)
  | .wait _ => none

/-- The calls that were answered under a schedule, the last one first, after those of `past`. Other
requests leave the records alone. -/
def deeds (w : Pool (Thread α)) (past : List Deed) : List Choice → List Deed
  | [] => past
  | c :: cs => deeds (w.go (Thread.advance .all) c) ((w.deed? c).toList ++ past) cs

theorem deeds_concat (c : Choice) : ∀ (cs : List Choice) (w : Pool (Thread α)) (past : List Deed),
    w.deeds past (cs ++ [c])
      = ((w.run (Thread.advance .all) cs).deed? c).toList ++ w.deeds past cs
  | [], _, _ => rfl
  | d :: cs, w, _ => deeds_concat c cs (w.go (Thread.advance .all) d) _

end Pool

/-- The type that a pause has last put on the wait under `key`, since thread `i` looked there.
Without one the wait is for what the thread has seen. -/
def retyped (i : Nat) (key : String) : List Deed → Option String
  | [] => none
  | d :: ds =>
    if d.thread = i && d.call.looks key then none
    else (d.call.retypes? key).or (retyped i key ds)

/-! ## What others do to a wait -/

/-- A wait stays one, and its type changes only when it is paused for another one. -/
def RecordStore.Awaits (s : RecordStore) (key : String) (t : Option String) : Prop :=
  ∃ r, s.find? key = some r ∧ r.paused = true ∧ r.eventType = t

namespace RecordStore

variable {s : RecordStore} {key : String} {t : Option String}

theorem Awaits.save (h : s.Awaits key t) (e : Record) : (s.save e).Awaits key t := by
  obtain ⟨r, hr, hp, ht⟩ := h
  rw [Awaits, find?_save]
  split
  · subst key
    rw [hr]
    exact ⟨_, rfl, (r.merge_paused e).trans hp, (Record.merge_eventType_of_paused e hp).trans ht⟩
  · exact ⟨r, hr, hp, ht⟩

theorem Awaits.markPaused (h : s.Awaits key t) (context : Record) (now : Instant) :
    (s.markPaused context now).Awaits key
      (((EventCall.markPaused context).retypes? key).or t) := by
  obtain ⟨r, hr, hp, ht⟩ := h
  rw [Awaits, find?_markPaused, EventCall.retypes?]
  by_cases hk : key = context.key
  · subst hk
    rw [if_pos rfl, if_pos rfl, hr]
    exact ⟨_, rfl, rfl, ht ▸ Option.orElse_eq_or⟩
  · rw [if_neg hk, if_neg (Ne.symm hk)]
    exact ⟨r, hr, hp, ht⟩

theorem Awaits.markReady (h : s.Awaits key t) (k : String) : (s.markReady k).2.Awaits key t := by
  obtain ⟨r, hr, hp, ht⟩ := h
  rw [Awaits, find?_markReady]
  split
  · rw [hr]
    exact ⟨_, rfl, hp, ht⟩
  · exact ⟨r, hr, hp, ht⟩

end RecordStore

/-- Only a pause that is answered changes what a wait awaits, and it changes it to the type that it
names. -/
theorem State.awaits_reply {s : State} {key : String} {t : Option String}
    (h : s.events.Awaits key t) (fault : Option Fault) (r : Request) :
    (reply .all fault r s).2.events.Awaits key
      (((r.answered? fault).bind (·.retypes? key)).or t) := by
  cases fault with
  | none =>
      rw [reply_nofault]
      cases r with
      | events c =>
          cases c with
          | save e => exact h.save e
          | markPaused context => exact h.markPaused context _
          | markReady k => exact h.markReady k
          | _ => exact h
      | scenarios c => cases c <;> exact h
      | _ => exact h
  | some f => cases r <;> exact h

/-! ## What a call goes by -/

/-- What a call has found under a key, once its request is answered; other requests leave what was
found before. -/
def Request.found : (r : Request) → r.Answer → Option Record → Option Record
  | .events (.find _), .ok found, _ => found
  | _, _, found => found

/-- A call on `e` looks only under the event's key, and makes ready only a wait that it has found
there and that awaited the event. -/
def Request.Heeds (e : Record) (found : Option Record) : Request → Prop
  | .events (.find key) => key = e.key
  | .events (.markReady key) => key = e.key
    ∧ ∃ current, found = some current ∧ current.paused = true ∧ current.awaits e.eventType = true
  | _ => True

namespace Proc

def Heeds (e : Record) : Option Record → Proc Outcome → Prop
  | _, .done _ => True
  | found, .ask r next => r.Heeds e found ∧ ∀ x, Heeds e (r.found x found) (next x)

variable {e : Record} {found : Option Record}

/-- Without looks and flips there is nothing to heed. -/
theorem heeds_of_asks : ∀ {p : Proc Outcome},
    p.Asks (fun r => r.Heeds e none ∧ ∀ x found, r.found x found = found) → p.Heeds e found
  | .done _, _ => trivial
  | .ask r _, ⟨⟨hr, hf⟩, hn⟩ => by
      refine ⟨?_, fun x => (hf x found).symm ▸ heeds_of_asks (hn x)⟩
      cases r with
      | events c =>
          cases c with
          | markReady key =>
              obtain ⟨-, _, h, -⟩ := hr
              cases h
          | _ => exact hr
      | _ => trivial

theorem heeds_note {entry : LogEntry} {f : Unit → Proc Outcome} (h : (f ()).Heeds e found) :
    (note entry >>= f).Heeds e found := ⟨trivial, fun _ => h⟩

end Proc

namespace Engine

theorem heeds_resume (g : Engine) (e current : Record) :
    (g.resume e current).Heeds e (some current) := by
  rcases g.resume_cases e current with ⟨entry, o, -, heq, -⟩ | ⟨hp, ha, -, heq⟩
  · rw [heq]
    exact heeds_note trivial
  · rw [heq]
    refine ⟨⟨rfl, current, rfl, hp, ha⟩, fun x => heeds_of_asks ?_⟩
    exact asks_conclude_of (fun _ => ⟨trivial, fun _ _ => rfl⟩)
      (fun _ => ⟨trivial, fun _ _ => rfl⟩) x

theorem heeds_settle (g : Engine) (e : Record) (found : Option Record) :
    (g.settle e).Heeds e found := by
  refine ⟨rfl, fun x => ?_⟩
  match x with
  | .ok (some current) => exact heeds_resume g e current
  | .ok none => exact heeds_note trivial
  | .error f => exact heeds_note trivial

theorem heeds_accept (g : Engine) (e : Record) : (g.accept e).Heeds e none := by
  cases hkey : Text.blank e.key with
  | true =>
      rw [accept_of_blank g hkey]
      exact heeds_note trivial
  | false =>
      rw [accept_eq g hkey]
      refine ⟨trivial, fun x => ?_⟩
      cases x with
      | ok => exact heeds_settle g e none
      | error f => exact heeds_note (heeds_settle g e none)

end Engine

/-! ## Calls under way -/

/-- Another call is added to those that were answered. -/
theorem retyped_append {i j : Nat} {key : String} {c : Option EventCall} (ds : List Deed)
    (h : i ≠ j ∨ c.any (·.looks key) = false) :
    retyped j key ((c.map (Deed.mk i)).toList ++ ds)
      = (c.bind (·.retypes? key)).or (retyped j key ds) := by
  cases c with
  | none => rfl
  | some c =>
      refine if_neg fun hlooks => ?_
      obtain ⟨hij, hlooks⟩ := Bool.and_eq_true_iff.mp hlooks
      rcases h with hne | hnot
      · exact hne (of_decide_eq_true hij)
      · exact absurd (hnot.symm.trans hlooks) (by decide)

/-- A request finds something anew only by a look that is answered. The look starts the count of
pauses anew, and what it finds is there. -/
theorem Request.found_eq (fault : Option Fault) (r : Request) (s : State) (key : String)
    (found : Option Record) : (∃ k, r = .events (.find k) ∧ fault = none)
      ∨ r.found (State.reply .all fault r s).1 found = found
        ∧ (r.answered? fault).any (·.looks key) = false := by
  cases r with
  | events c =>
      cases fault with
      | none =>
          cases c with
          | find k => exact .inl ⟨k, rfl, rfl⟩
          | _ => exact .inr ⟨rfl, rfl⟩
      | some f => cases c <;> exact .inr ⟨rfl, rfl⟩
  | _ => cases fault <;> exact .inr ⟨rfl, rfl⟩

namespace Thread

variable {α : Type} {t : Thread α} {s : State} {i j : Nat} {ds : List Deed} {fault : Option Fault}

/-- A call that is under way goes by what it has found, and that is true of the wait but for the
pauses since. -/
def Minds (i : Nat) (ds : List Deed) (t : Thread α) (s : State) : Prop :=
  match t.position with
  | .outside _ => True
  | .inside e rest _ => ∃ found, rest.Heeds e found ∧ ∀ current, found = some current →
    current.paused = true → s.events.Awaits e.key ((retyped i e.key ds).or current.eventType)

theorem awaits_advance {key : String} {a : Option String} (h : s.events.Awaits key a)
    (fault : Option Fault) (t : Thread α) :
    (advance .all fault t s).2.events.Awaits key
      (((t.answered? fault).bind (·.retypes? key)).or a) := by
  match t with
  | ⟨_, .outside (.done _)⟩ | ⟨_, .outside (.accept _ _ _)⟩ | ⟨_, .inside _ (.done _) _⟩ => exact h
  | ⟨_, .outside (.ask r _)⟩ | ⟨_, .inside _ (.ask r _) _⟩ => exact State.awaits_reply h fault r

theorem Minds.others (h : t.Minds j ds s) (hij : i ≠ j) (fault : Option Fault) (u : Thread α) :
    t.Minds j (((u.answered? fault).map (Deed.mk i)).toList ++ ds) (advance .all fault u s).2 := by
  match t, h with
  | ⟨_, .outside _⟩, _ => trivial
  | ⟨_, .inside e _ _⟩, ⟨found, hheeds, hfound⟩ =>
      refine ⟨found, hheeds, fun current hc hp => ?_⟩
      rw [retyped_append ds (.inl hij), Option.or_assoc]
      exact awaits_advance (hfound current hc hp) fault u

theorem Minds.advance (h : t.Minds i ds s) (fault : Option Fault) :
    (advance .all fault t s).1.Minds i (((t.answered? fault).map (Deed.mk i)).toList ++ ds)
      (advance .all fault t s).2 := by
  match t, h with
  | ⟨_, .outside (.done _)⟩, _ | ⟨_, .outside (.ask _ _)⟩, _ | ⟨_, .inside _ (.done _) _⟩, _ =>
      trivial
  | ⟨_, .outside (.accept g e _)⟩, _ =>
      exact ⟨none, g.heeds_accept e, fun _ hc => by cases hc⟩
  | ⟨ms, .inside e (.ask r rest) next⟩, ⟨found, ⟨hr, hnext⟩, hfound⟩ =>
      refine ⟨_, hnext _, fun current hc hp => ?_⟩
      rcases r.found_eq fault s e.key found with ⟨k, rfl, rfl⟩ | ⟨heq, hlooks⟩
      · obtain rfl : k = e.key := hr
        have hself : retyped i e.key (⟨i, .find e.key⟩ :: ds) = none := by
          simp [retyped, EventCall.looks]
        change RecordStore.Awaits _ e.key ((retyped i e.key (⟨i, .find e.key⟩ :: ds)).or _)
        rw [hself]
        exact ⟨current, hc, hp, rfl⟩
      · rw [heq] at hc
        have hnew := retyped_append (i := i) (j := i) ds (.inr hlooks)
        change RecordStore.Awaits _ e.key
          ((retyped i e.key (((r.answered? fault).map (Deed.mk i)).toList ++ ds)).or _)
        rw [hnew, Option.or_assoc]
        exact State.awaits_reply (hfound current hc hp) fault r

end Thread

namespace Pool

variable {α : Type} {w : Pool (Thread α)}

theorem minds_go {ds : List Deed} (h : w.Meets fun i => Thread.Minds i ds) (c : Choice) :
    (w.go (Thread.advance .all) c).Meets fun i => Thread.Minds i ((w.deed? c).toList ++ ds) := by
  cases c with
  | wait ms => exact h
  | step i fault =>
      cases hi : w.threads[i]? with
      | none =>
          rw [go, deed?, hi]
          exact h
      | some t =>
          rw [go_step hi, deed?, hi]
          intro j u hu
          rcases getElem?_set_cases hu with ⟨rfl, rfl⟩ | ⟨hij, hj⟩
          · exact (h j t hi).advance fault
          · exact (h j u hj).others (Ne.symm hij) fault t

theorem minds_run (h : w.Meets fun i => Thread.Minds i []) (schedule : List Choice) :
    (w.run (Thread.advance .all) schedule).Meets fun i =>
      Thread.Minds i (w.deeds [] schedule) := by
  induction schedule using List.reverseRecOn with
  | nil => exact h
  | append_singleton cs c ih =>
      rw [deeds_concat, run_append]
      exact minds_go ih c

theorem minds_ofJobs (s : State) (jobs : List Job) :
    (ofJobs s jobs).Meets fun i => Thread.Minds i [] := by
  intro i t ht
  obtain ⟨job, -, rfl⟩ := List.mem_map.mp (List.mem_of_getElem? ht)
  trivial

/-- Thread `i` goes on with the request by which a call of `accept` on `e` makes the record under
`key` ready, and it is this request that does it. -/
structure Flips (w : Pool (Thread α)) (i : Nat) (e : Record) (key : String) : Prop where
  next : ∃ ms rest next,
    w.threads[i]? = some ⟨ms, .inside e (.ask (.events (.markReady key)) rest) next⟩
  flips : (w.state.events.markReady key).1 = true

end Pool

/-- **What a wait awaits when it is made ready.** Whenever a call of `accept` makes a record ready,
it is that of a wait under the event's key, and the wait awaits the event exactly if, since the call
looked it up, it was not paused for a type or was last paused for that of the event. -/
theorem awaits_at_flip_iff (s : State) (jobs : List Job) (schedule : List Choice) {i : Nat}
    {e : Record} {key : String}
    (h : ((Pool.ofJobs s jobs).run (Thread.advance .all) schedule).Flips i e key) :
    let w := (Pool.ofJobs s jobs).run (Thread.advance .all) schedule
    key = e.key ∧ ∃ r, w.state.events.find? e.key = some r ∧ r.paused = true ∧ r.ready = false
      ∧ (r.awaits e.eventType = true ↔ ∀ t,
        retyped i e.key ((Pool.ofJobs s jobs).deeds [] schedule) = some t →
        e.eventType = some t) := by
  intro w
  obtain ⟨⟨ms, rest, next, hi⟩, hflips⟩ := h
  obtain ⟨found, ⟨⟨rfl, current, rfl, hp, ha⟩, -⟩, hfound⟩ :=
    Pool.minds_run (Pool.minds_ofJobs s jobs) schedule i _ hi
  obtain ⟨r, hr, hrp, ht⟩ := hfound current rfl hp
  obtain ⟨r', hr', hready⟩ := (w.state.events.markReady_fst e.key).mp hflips
  obtain rfl := Option.some.inj (hr.symm.trans hr')
  refine ⟨rfl, r, hr, hrp, hready, ?_⟩
  generalize retyped i e.key _ = typed at ht ⊢
  unfold Record.awaits at ha ⊢
  rw [ht]
  cases typed with
  | none => exact ⟨fun _ _ h => (by cases h), fun _ => ha⟩
  | some t =>
      refine ⟨fun h u hu => ?_, fun h => decide_eq_true (h t rfl)⟩
      obtain rfl := Option.some.inj hu
      exact of_decide_eq_true h

/-- A wait for a shipment, the shipment, and a pause of the wait for a cancellation, each by a
thread of its own. -/
def shipmentRetyped : List Job :=
  [.pause (.placeholder "ORD1::SHIPPED" "ORD1" (some "SHIPPED") default),
    .accept ⟨none⟩ (.observed "ORD1" "SHIPPED" .null default),
    .pause (.placeholder "ORD1::SHIPPED" "ORD1" (some "CANCELLED") default)]

/-- A schedule up to the moment when the engine has found the wait and is about to make it ready. -/
def matched : List Choice := .step 0 none :: List.replicate 3 (.step 1 none)

theorem shipment_awaited :
    let w := (Pool.ofJobs (State.initial fun _ => ⟨0, 1, fun _ => 0⟩) shipmentRetyped).run
      (Thread.advance .all) matched
    ∃ r, w.state.events.find? "ORD1::SHIPPED" = some r ∧ r.awaits (some "SHIPPED") = true := by
  have hflips : ((Pool.ofJobs (State.initial fun _ => ⟨0, 1, fun _ => 0⟩) shipmentRetyped).run
      (Thread.advance .all) matched).Flips 1 (.observed "ORD1" "SHIPPED" .null default)
        "ORD1::SHIPPED" := ⟨⟨_, _, _, rfl⟩, by rfl⟩
  obtain ⟨-, r, hr, -, -, hiff⟩ := awaits_at_flip_iff _ shipmentRetyped matched hflips
  have hnone : retyped 1 "ORD1::SHIPPED" ((Pool.ofJobs (State.initial fun _ => ⟨0, 1, fun _ => 0⟩)
      shipmentRetyped).deeds [] matched) = none := by rfl
  exact ⟨r, hr, hiff.mpr fun t ht => by cases hnone.symm.trans ht⟩

/-- A pause that comes in between changes what the wait is made ready for, after it was found to be
for another type. -/
theorem flip_mismatched :
    let w := (Pool.ofJobs (State.initial fun _ => ⟨0, 1, fun _ => 0⟩) shipmentRetyped).run
      (Thread.advance .all) (matched ++ [.step 2 none])
    w.Flips 1 (.observed "ORD1" "SHIPPED" .null default) "ORD1::SHIPPED"
      ∧ ∃ r, w.state.events.find? "ORD1::SHIPPED" = some r
        ∧ r.awaits (some "SHIPPED") = false :=
  ⟨⟨⟨_, _, _, rfl⟩, by rfl⟩, _, rfl, by rfl⟩

end Rendezvous
