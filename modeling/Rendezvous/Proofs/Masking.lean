import Rendezvous.Proofs.Faults

/-!
# Records that differ in what belongs to a wait

A record that is handed over may carry anything in the fields of a wait. `Record.Alike` says of two
records that they differ there and nowhere else. The store takes no notice of these fields:
whichever of the two is saved or paused, it is the same store afterwards. The mailboxes hand such
records on as they are, so they differ in what they hold and in what they have given to receivers.
Apart from that they agree (`Mailbox.masked`), and they answer the same to every request.
-/

namespace Rendezvous

/-! ## Records and their store -/

namespace Record

/-- The two records differ at most in what belongs to a wait, which is the caller's word against the
store's. -/
def Alike (e d : Record) : Prop := e.fresh = d.fresh

variable {e d : Record}

theorem Alike.rfl {e : Record} : e.Alike e := Eq.refl _

theorem Alike.fresh_eq (h : e.Alike d) : e.fresh = d.fresh := h

theorem Alike.key_eq (h : e.Alike d) : e.key = d.key := by
  have hkey : e.fresh.key = d.fresh.key := by rw [h.fresh_eq]
  exact hkey

theorem Alike.order_eq (h : e.Alike d) : e.order = d.order := by
  have horder : e.fresh.order = d.fresh.order := by rw [h.fresh_eq]
  exact horder

theorem Alike.eventType_eq (h : e.Alike d) : e.eventType = d.eventType := by
  have htype : e.fresh.eventType = d.fresh.eventType := by rw [h.fresh_eq]
  exact htype

end Record

namespace RecordStore

variable {e d : Record}

/-- A record is saved without what it says of a wait. -/
theorem save_alike (h : e.Alike d) (s : RecordStore) : s.save e = s.save d := by
  have hfresh : ∀ c : Record, s.save c = s.save c.fresh := fun _ => rfl
  rw [hfresh e, hfresh d, h]

theorem markPaused_alike (h : e.Alike d) (s : RecordStore) (now : Instant) :
    s.markPaused e now = s.markPaused d now := by
  have hfresh : ∀ c : Record, s.markPaused c now = s.markPaused c.fresh now := fun _ => rfl
  rw [hfresh e, hfresh d, h]

end RecordStore

/-! ## Mailboxes -/

theorem Table.filter_mapValues {α β : Type} (t : Table α) (f : α → β) (p : String → β → Bool) :
    (t.mapValues f).filter p = (t.filter fun k v => p k (f v)).mapValues f := by
  refine Table.ext fun k => ?_
  rw [get?_filter, get?_mapValues, get?_mapValues, get?_filter, Option.filter_map]
  rfl

theorem Table.insert_mapValues {α β : Type} (t : Table α) (f : α → β) (k : String) (v : α) :
    (t.insert k v).mapValues f = (t.mapValues f).insert k (f v) := by
  refine Table.ext fun j => ?_
  rw [get?_mapValues, get?_insert, get?_insert, get?_mapValues]
  split <;> rfl

theorem Table.erase_mapValues {α β : Type} (t : Table α) (f : α → β) (k : String) :
    (t.erase k).mapValues f = (t.mapValues f).erase k := by
  rw [erase, erase, filter_mapValues]

/-- What a receiver was given, without what it says of a wait. Whoever waits looks at the event
alone. -/
def Receiver.masked : Receiver → Receiver
  | .resolved result => .resolved result.fresh
  | r => r

def Held.masked (h : Held) : Held := { h with result := h.result.fresh }

namespace Mailbox

/-- The mailbox, with all it holds and has given away shorn of what belongs to a wait. Every
operation does the same to it, masked or not. -/
def masked (a : Mailbox) : Mailbox :=
  { a with receivers := a.receivers.map Receiver.masked, held := a.held.mapValues Held.masked }

variable (a : Mailbox) (ret : Retention) (now : Nat) (key : String)

@[simp] theorem waiters_masked : a.masked.waiters = a.waiters := rfl

@[simp] theorem held_masked : a.masked.held = a.held.mapValues Held.masked := rfl

@[simp] theorem isPending_masked : a.masked.isPending = a.isPending := by
  funext id
  show decide ((a.receivers.map Receiver.masked)[id]? = some .pending) = _
  rw [List.getElem?_map, isPending]
  cases a.receivers[id]? with
  | none => rfl
  | some r => cases r <;> rfl

theorem masked_prune : (a.prune ret now).masked = a.masked.prune ret now := by
  have hheld : (a.held.mapValues Held.masked).filter (fun _ h => now - h.since < ret.ttl)
      = (a.held.filter fun _ h => now - h.since < ret.ttl).mapValues Held.masked := by
    rw [Table.filter_mapValues]
    rfl
  rw [prune, prune, isPending_masked]
  exact congrArg (Mailbox.mk _ _) hheld.symm

@[simp] theorem waiting_masked : a.masked.waiting key = a.waiting key := by
  rw [waiting, waiting, isPending_masked, waiters_masked]

theorem register_masked : (a.masked.register ret now key).1 = (a.register ret now key).1
    ∧ (a.masked.register ret now key).2 = (a.register ret now key).2.masked := by
  have hlength : (a.prune ret now).masked.receivers.length = (a.prune ret now).receivers.length :=
    List.length_map ..
  have hheld : (a.prune ret now).masked.held.get? key
      = ((a.prune ret now).held.get? key).map Held.masked := Table.get?_mapValues ..
  unfold register
  rw [← masked_prune]
  generalize a.prune ret now = b at *
  cases hfound : b.held.get? key with
  | none =>
      rw [hfound] at hheld
      simp only [hfound, hheld, Option.map_none]
      refine ⟨by rw [hlength], ?_⟩
      rw [hlength]
      simp [masked, Receiver.masked]
  | some h =>
      rw [hfound] at hheld
      simp only [hfound, hheld, Option.map_some]
      refine ⟨by rw [hlength], ?_⟩
      simp [masked, Receiver.masked, Held.masked, Table.erase_mapValues]

/-- Who is resolved is resolved with the result as it is. -/
theorem masked_resolve (result : Record) (ids : List Nat) :
    (a.resolve result ids).masked = a.masked.resolve result.fresh ids := by
  have hset : ∀ (ids : List Nat) (rs : List Receiver),
      (ids.foldl (fun rs id => rs.set id (.resolved result)) rs).map Receiver.masked
        = ids.foldl (fun rs id => rs.set id (.resolved result.fresh)) (rs.map Receiver.masked) := by
    intro ids
    induction ids with
    | nil => exact fun _ => rfl
    | cons id ids ih =>
        intro rs
        rw [List.foldl_cons, List.foldl_cons, ih, List.map_set]
        rfl
  simp only [resolve, masked, hset]

@[simp] theorem oldest_masked : a.masked.oldest = a.oldest := by
  show ((a.held.entries.map fun e => (e.1, e.2.masked)).filter fun e =>
      (a.held.entries.map fun e => (e.1, e.2.masked)).all fun d => e.2.since ≤ d.2.since).map (·.1)
    = (a.held.entries.filter fun e => a.held.entries.all fun d => e.2.since ≤ d.2.since).map (·.1)
  rw [List.filter_map, List.map_map]
  simp only [List.all_map]
  rfl

@[simp] theorem evictee_masked : a.masked.evictee ret key = a.evictee ret key := by
  have hsize : a.masked.held.size = a.held.size := List.length_map ..
  have hcontains : a.masked.held.contains key = a.held.contains key := by
    rw [Table.contains, held_masked, Table.get?_mapValues, Option.isSome_map, Table.contains]
  rw [evictee, evictee, oldest_masked, hsize, hcontains]

theorem hold_masked (result : Record) :
    (a.masked.hold ret now key result.fresh).1 = (a.hold ret now key result).1
      ∧ (a.masked.hold ret now key result.fresh).2 = (a.hold ret now key result).2.masked := by
  unfold hold
  rw [← masked_prune]
  generalize a.prune ret now = b
  simp only [evictee_masked]
  refine ⟨trivial, ?_⟩
  cases b.evictee ret key with
  | none => simp [masked, Table.insert_mapValues, Held.masked]
  | some k => simp [masked, Table.insert_mapValues, Table.erase_mapValues, Held.masked]

theorem complete_masked (result : Record) :
    (a.masked.complete ret now key result.fresh).1 = (a.complete ret now key result).1
      ∧ (a.masked.complete ret now key result.fresh).2
        = (a.complete ret now key result).2.masked := by
  unfold complete
  simp only [waiters_masked, isPending_masked]
  generalize ((a.waiters.get? key).getD []).filter a.isPending = live
  have hresolve : resolve ⟨a.masked.receivers, a.waiters.erase key, a.masked.held⟩ result.fresh live
      = (resolve ⟨a.receivers, a.waiters.erase key, a.held⟩ result live).masked :=
    (masked_resolve ⟨a.receivers, a.waiters.erase key, a.held⟩ result live).symm
  rw [hresolve]
  split
  · obtain ⟨hevicted, hheld⟩ := hold_masked (resolve ⟨a.receivers, a.waiters.erase key, a.held⟩
      result live) ret now key result
    exact ⟨congrArg (Completion.mk 0) hevicted, hheld⟩
  · exact ⟨rfl, rfl⟩

/-- The two mailboxes agree but for what they hold and have given away, and there they are alike. -/
def Alike (a b : Mailbox) : Prop := a.masked = b.masked

variable {a : Mailbox} {b : Mailbox} {e d : Record}

theorem Alike.waiting_eq (h : a.Alike b) (key : String) : a.waiting key = b.waiting key := by
  rw [← waiting_masked a, ← waiting_masked b, h]

theorem Alike.register (h : a.Alike b) (ret : Retention) (now : Nat) (key : String) :
    (a.register ret now key).1 = (b.register ret now key).1
      ∧ (a.register ret now key).2.Alike (b.register ret now key).2 := by
  obtain ⟨hanswer, hmasked⟩ := register_masked a ret now key
  obtain ⟨hanswer', hmasked'⟩ := register_masked b ret now key
  rw [h] at hanswer hmasked
  exact ⟨hanswer.symm.trans hanswer', hmasked.symm.trans hmasked'⟩

theorem Alike.complete (h : a.Alike b) (he : e.Alike d) (ret : Retention) (now : Nat)
    (key : String) : (a.complete ret now key e).1 = (b.complete ret now key d).1
      ∧ (a.complete ret now key e).2.Alike (b.complete ret now key d).2 := by
  obtain ⟨hanswer, hmasked⟩ := complete_masked a ret now key e
  obtain ⟨hanswer', hmasked'⟩ := complete_masked b ret now key d
  rw [h, he.fresh_eq] at hanswer hmasked
  exact ⟨hanswer.symm.trans hanswer', hmasked.symm.trans hmasked'⟩

end Mailbox

/-! ## States -/

namespace State

/-- The two states have the same stores and the same clock, and their mailboxes are alike. Nobody
who asks a store can tell them apart. -/
structure Alike (s t : State) : Prop where
  events_eq : s.events = t.events
  scenarios_eq : s.scenarios = t.scenarios
  mailboxes : ∀ id, (s.mailboxes id).Alike (t.mailboxes id)
  retention_eq : s.retention = t.retention
  clock_eq : s.clock = t.clock

variable {s t : State} {e d : Record}

theorem Alike.rfl {s : State} : s.Alike s := ⟨Eq.refl _, Eq.refl _, fun _ => Eq.refl _, Eq.refl _,
  Eq.refl _⟩

theorem Alike.now_eq (h : s.Alike t) : s.now = t.now := by rw [now, now, h.clock_eq]

theorem Alike.wait (h : s.Alike t) (ms : Nat) : (s.wait ms).Alike (t.wait ms) where
  events_eq := h.events_eq
  scenarios_eq := h.scenarios_eq
  mailboxes := h.mailboxes
  retention_eq := h.retention_eq
  clock_eq := by
    show s.clock + ms = t.clock + ms
    rw [h.clock_eq]

theorem Alike.withEvents (h : s.Alike t) {r q : RecordStore} (hrq : r = q) :
    State.Alike { s with events := r } { t with events := q } where
  events_eq := hrq
  scenarios_eq := h.scenarios_eq
  mailboxes := h.mailboxes
  retention_eq := h.retention_eq
  clock_eq := h.clock_eq

theorem Alike.setMailbox (h : s.Alike t) (id : MailboxId) {a b : Mailbox} (hab : a.Alike b) :
    (s.setMailbox id a).Alike (t.setMailbox id b) where
  events_eq := h.events_eq
  scenarios_eq := h.scenarios_eq
  mailboxes := by
    intro i
    show (if i = id then a else s.mailboxes i).Alike (if i = id then b else t.mailboxes i)
    split
    · exact hab
    · exact h.mailboxes i
  retention_eq := h.retention_eq
  clock_eq := h.clock_eq

theorem Alike.complete (h : s.Alike t) (he : e.Alike d) (id : MailboxId) (key : String) :
    (s.complete id key e).1 = (t.complete id key d).1
      ∧ (s.complete id key e).2.Alike (t.complete id key d).2 := by
  obtain ⟨hanswer, hmailbox⟩ := (h.mailboxes id).complete he (s.retention id) s.clock key
  unfold State.complete
  rw [← h.retention_eq, ← h.clock_eq]
  exact ⟨hanswer, h.setMailbox id hmailbox⟩

theorem Alike.register (h : s.Alike t) (id : MailboxId) (key : String) :
    (s.register id key).1 = (t.register id key).1
      ∧ (s.register id key).2.Alike (t.register id key).2 := by
  obtain ⟨hanswer, hmailbox⟩ := (h.mailboxes id).register (s.retention id) s.clock key
  unfold State.register
  rw [← h.retention_eq, ← h.clock_eq]
  exact ⟨hanswer, h.setMailbox id hmailbox⟩

theorem Alike.answerEvents (h : s.Alike t) (c : EventCall) :
    (State.answerEvents c s).1 = (State.answerEvents c t).1
      ∧ (State.answerEvents c s).2.Alike (State.answerEvents c t).2 := by
  have hevents := h.events_eq
  cases c with
  | save e =>
      refine ⟨Eq.refl _, h.withEvents ?_⟩
      rw [hevents]
  | markPaused context =>
      refine ⟨Eq.refl _, h.withEvents ?_⟩
      rw [hevents, h.now_eq]
  | markReady key =>
      refine ⟨?_, h.withEvents ?_⟩
      · show (s.events.markReady key).1 = (t.events.markReady key).1
        rw [hevents]
      · rw [hevents]
  | latest order eventType => exact ⟨congrArg (·.latest? order eventType) hevents, h⟩
  | find key => exact ⟨congrArg (·.find? key) hevents, h⟩
  | isReady key => exact ⟨congrArg (·.isReady key) hevents, h⟩
  | byOrder order => exact ⟨congrArg (·.byOrder order) hevents, h⟩
  | paused => exact ⟨congrArg RecordStore.paused hevents, h⟩

theorem Alike.answerScenarios (h : s.Alike t) (c : ScenarioCall) :
    (State.answerScenarios c s).1 = (State.answerScenarios c t).1
      ∧ (State.answerScenarios c s).2.Alike (State.answerScenarios c t).2 := by
  have hstates : ∀ {r q : ScenarioStore}, r = q →
      State.Alike { s with scenarios := r } { t with scenarios := q } := fun hrq =>
    ⟨h.events_eq, hrq, h.mailboxes, h.retention_eq, h.clock_eq⟩
  cases c with
  | find key => exact ⟨congrArg (·.find? key) h.scenarios_eq, h⟩
  | save state => exact ⟨Eq.refl _, hstates (congrArg (·.save state) h.scenarios_eq)⟩
  | delete key => exact ⟨Eq.refl _, hstates (congrArg (·.delete key) h.scenarios_eq)⟩
  | clear => exact ⟨Eq.refl _, hstates (Eq.refl _)⟩

variable (x : Exposure) (fault : Option Fault)

/-- The same request is answered alike. -/
theorem Alike.reply (h : s.Alike t) (r : Request) :
    (State.reply x fault r s).1 = (State.reply x fault r t).1
      ∧ (State.reply x fault r s).2.Alike (State.reply x fault r t).2 := by
  cases r with
  | events c =>
      obtain ⟨hanswer, hstate⟩ := h.answerEvents c
      simp only [State.reply]
      cases fault.filter fun _ => x.events with
      | some f => exact ⟨Eq.refl _, h⟩
      | none => exact ⟨congrArg Except.ok hanswer, hstate⟩
  | scenarios c =>
      obtain ⟨hanswer, hstate⟩ := h.answerScenarios c
      simp only [State.reply]
      cases fault.filter fun _ => x.scenarios with
      | some f => exact ⟨Eq.refl _, h⟩
      | none => exact ⟨congrArg Except.ok hanswer, hstate⟩
  | register id key => exact h.register id key
  | complete id key result => exact h.complete Record.Alike.rfl id key
  | waiting id key => exact ⟨(h.mailboxes id).waiting_eq key, h⟩
  | now => exact ⟨h.now_eq, h⟩
  | note entry => exact ⟨Eq.refl _, h⟩

theorem Alike.reply_save (h : s.Alike t) (he : e.Alike d) :
    (State.reply x fault (.events (.save e)) s).1 = (State.reply x fault (.events (.save d)) t).1
      ∧ (State.reply x fault (.events (.save e)) s).2.Alike
        (State.reply x fault (.events (.save d)) t).2 := by
  simp only [State.reply]
  cases fault.filter fun _ => x.events with
  | some f => exact ⟨Eq.refl _, h⟩
  | none =>
      refine ⟨Eq.refl _, h.withEvents ?_⟩
      rw [RecordStore.save_alike he, h.events_eq]

theorem Alike.reply_markPaused (h : s.Alike t) (he : e.Alike d) :
    (State.reply x fault (.events (.markPaused e)) s).1
        = (State.reply x fault (.events (.markPaused d)) t).1
      ∧ (State.reply x fault (.events (.markPaused e)) s).2.Alike
        (State.reply x fault (.events (.markPaused d)) t).2 := by
  simp only [State.reply]
  cases fault.filter fun _ => x.events with
  | some f => exact ⟨Eq.refl _, h⟩
  | none =>
      refine ⟨Eq.refl _, h.withEvents ?_⟩
      rw [RecordStore.markPaused_alike he, h.events_eq, h.now_eq]

end State

end Rendezvous
