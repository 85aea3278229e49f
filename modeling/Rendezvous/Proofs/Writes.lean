import Rendezvous.Proofs.Faults
import Rendezvous.RecordStore

/-!
# What writes keep

Three writes touch a record store. None of them takes anything back: a record that is kept stays
under its key, and once it is paused, ready or observed it remains so (`RecordStore.Grows`). An
observation that is saved leaves the wait of its record as it is (`Record.KeepsWait`). A record
always carries the key it is kept under (`RecordStore.Keyed`), in every store that writes have made
from the empty one (`RecordStore.ofWrites`).
-/

namespace Rendezvous

namespace Record

variable (r e context : Record) (now : Instant)

/-! ## The fields a write leaves alone -/

@[simp] theorem merge_key : (r.merge e).key = r.key := by
  unfold merge
  split
  · split <;> rfl
  · rfl

@[simp] theorem merge_paused : (r.merge e).paused = r.paused := by
  unfold merge
  split
  · split <;> rfl
  · rfl

@[simp] theorem merge_ready : (r.merge e).ready = r.ready := by
  unfold merge
  split
  · split <;> rfl
  · rfl

@[simp] theorem pause_key : (r.pause context now).key = r.key := rfl

@[simp] theorem pause_paused : (r.pause context now).paused = true := rfl

@[simp] theorem pause_ready : (r.pause context now).ready = r.ready := rfl

@[simp] theorem pause_isObserved : (r.pause context now).isObserved = r.isObserved := rfl

/-! ## What a merged record is -/

theorem merge_eq_of_not_paused {r : Record} (h : r.paused = false) :
    r.merge e = { r with order := e.order, eventType := e.eventType }.absorb e := by
  simp [merge, h]

/-- A wait keeps the type it awaits. -/
theorem merge_eventType_of_paused {r : Record} (h : r.paused = true) :
    (r.merge e).eventType = r.eventType := by
  unfold merge
  rw [if_pos h]
  split <;> rfl

/-- A wait accepts what it accepted before it took an event in. -/
theorem merge_awaits_of_paused {r : Record} (h : r.paused = true) (t : Option String) :
    (r.merge e).awaits t = r.awaits t := by
  rw [awaits, merge_eventType_of_paused e h, awaits]

theorem merge_eventType :
    (r.merge e).eventType = if r.paused then r.eventType else e.eventType := by
  split
  · exact merge_eventType_of_paused e ‹_›
  · rw [merge_eq_of_not_paused e (Bool.eq_false_iff.mpr ‹_›)]
    rfl

/-- A wait that has an order keeps it, and one without takes that of the observation, if any. -/
theorem merge_order_of_paused {r : Record} (h : r.paused = true) :
    (r.merge e).order = r.order ∨ r.order = "" ∧ (r.merge e).order = e.order := by
  unfold merge
  rw [if_pos h]
  split
  · by_cases ho : r.order = ""
    · exact .inr ⟨ho, by simp [absorb, ho]⟩
    · exact .inl (by simp [absorb, ho])
  · exact .inl rfl

/-- The wait of `q` is the one of `r`: the fields that belong to it are the same, and so is the type
it is for. -/
structure KeepsWait (r q : Record) : Prop where
  paused : q.paused = r.paused
  retries : q.retries = r.retries
  firstPaused : q.firstPaused = r.firstPaused
  lastPaused : q.lastPaused = r.lastPaused
  awaited : r.paused = true → q.eventType = r.eventType

theorem KeepsWait.rfl {r : Record} : r.KeepsWait r :=
  ⟨Eq.refl _, Eq.refl _, Eq.refl _, Eq.refl _, fun _ => Eq.refl _⟩

theorem KeepsWait.set_ready {r q : Record} (h : r.KeepsWait q) (ready : Bool) :
    r.KeepsWait { q with ready := ready } :=
  ⟨h.paused, h.retries, h.firstPaused, h.lastPaused, h.awaited⟩

theorem keepsWait_merge : r.KeepsWait (r.merge e) := by
  unfold merge
  split
  · split <;> exact ⟨rfl, rfl, rfl, rfl, fun _ => rfl⟩
  · rename_i hpaused
    exact ⟨rfl, rfl, rfl, rfl, fun h => absurd h hpaused⟩

theorem absorb_isObserved : (r.absorb e).isObserved = (e.isObserved || r.isObserved) := by
  unfold absorb isObserved
  cases e.observedAt <;> simp

theorem merge_isObserved_of_awaits {r e : Record} (h : r.awaits e.eventType = true) :
    (r.merge e).isObserved = (e.isObserved || r.isObserved) := by
  unfold merge
  split
  · rw [absorb_isObserved]; rfl
  · rw [absorb_isObserved]; rfl

/-! ## Nothing is taken back -/

/-- What is true of a record for good: that it is a wait, that it is ready and that it holds an
observation. -/
structure Grows (r q : Record) : Prop where
  paused : r.paused = true → q.paused = true
  ready : r.ready = true → q.ready = true
  observed : r.isObserved = true → q.isObserved = true

theorem Grows.rfl {r : Record} : r.Grows r := ⟨id, id, id⟩

theorem Grows.trans {r p q : Record} (h : r.Grows p) (h' : p.Grows q) : r.Grows q :=
  ⟨h'.paused ∘ h.paused, h'.ready ∘ h.ready, h'.observed ∘ h.observed⟩

theorem grows_merge : r.Grows (r.merge e) where
  paused h := by rw [merge_paused, h]
  ready h := by rw [merge_ready, h]
  observed h := by
    unfold merge
    split
    · split
      · rw [absorb_isObserved]
        exact Bool.or_eq_true_iff.mpr (.inr h)
      · exact h
    · rw [absorb_isObserved]
      exact Bool.or_eq_true_iff.mpr (.inr h)

theorem grows_pause : r.Grows (r.pause context now) := ⟨fun _ => by simp, id, id⟩

theorem grows_ready : r.Grows { r with ready := true } := ⟨id, fun _ => by simp, id⟩

end Record

namespace RecordStore

/-- Every record of `s` is still kept in `t`, and nothing of it was taken back. All writes do this
to a store, so it holds over any run. -/
def Grows (s t : RecordStore) : Prop :=
  ∀ key r, s.find? key = some r → ∃ q, t.find? key = some q ∧ r.Grows q

theorem Grows.rfl {s : RecordStore} : s.Grows s := fun _ r h => ⟨r, h, .rfl⟩

theorem Grows.trans {s t u : RecordStore} (h : s.Grows t) (h' : t.Grows u) : s.Grows u := by
  intro key r hr
  obtain ⟨q, hq, hrq⟩ := h key r hr
  obtain ⟨p, hp, hqp⟩ := h' key q hq
  exact ⟨p, hp, hrq.trans hqp⟩

theorem grows_save (s : RecordStore) (e : Record) : s.Grows (s.save e) := by
  intro key r hr
  rw [find?_save]
  split
  · subst key
    exact ⟨_, by rw [hr], r.grows_merge e⟩
  · exact ⟨r, hr, .rfl⟩

theorem grows_markPaused (s : RecordStore) (context : Record) (now : Instant) :
    s.Grows (s.markPaused context now) := by
  intro key r hr
  rw [find?_markPaused]
  split
  · subst key
    exact ⟨_, by rw [hr]; rfl, r.grows_pause context now⟩
  · exact ⟨r, hr, .rfl⟩

theorem grows_markReady (s : RecordStore) (k : String) : s.Grows (s.markReady k).2 := by
  intro key r hr
  rw [find?_markReady]
  split
  · exact ⟨_, by rw [hr]; rfl, r.grows_ready⟩
  · exact ⟨r, hr, .rfl⟩

theorem Grows.isReady {s t : RecordStore} (h : s.Grows t) {key : String}
    (hr : s.isReady key = true) : t.isReady key = true := by
  obtain ⟨r, hf, hr⟩ := Option.any_eq_true _ _ |>.mp hr
  obtain ⟨q, hq, hrq⟩ := h key r hf
  exact Option.any_eq_true _ _ |>.mpr ⟨q, hq, hrq.ready hr⟩

theorem Grows.exists_paused {s t : RecordStore} (h : s.Grows t) {key : String}
    (hs : ∃ r, s.find? key = some r ∧ r.paused = true) :
    ∃ q, t.find? key = some q ∧ q.paused = true := by
  obtain ⟨r, hr, hp⟩ := hs
  obtain ⟨q, hq, hrq⟩ := h key r hr
  exact ⟨q, hq, hrq.paused hp⟩

theorem isReady_markReady_self {s : RecordStore} {key : String} {r : Record}
    (h : s.find? key = some r) : (s.markReady key).2.isReady key = true := by
  rw [isReady, find?_markReady, if_pos rfl, h]
  rfl

/-! ## What all records satisfy -/

/-- Every record satisfies `P` under the key it is kept under. Invariants of the store are of this
form, with one lemma for each write. -/
def All (P : String → Record → Prop) (s : RecordStore) : Prop :=
  ∀ key r, s.find? key = some r → P key r

section

variable {P : String → Record → Prop} {s : RecordStore}

theorem all_empty (P : String → Record → Prop) : empty.All P := by
  intro key r h
  cases h

theorem All.save (h : s.All P) {e : Record} (new : P e.key e.fresh)
    (merged : ∀ r, s.find? e.key = some r → P e.key (r.merge e)) : (s.save e).All P := by
  intro key q hq
  rw [find?_save] at hq
  split at hq
  · subst key
    obtain rfl := Option.some.inj hq
    cases hr : s.find? e.key with
    | none => exact new
    | some r => exact merged r hr
  · exact h key q hq

theorem All.markPaused (h : s.All P) {context : Record} {now : Instant}
    (new : P context.key (context.fresh.pause context now))
    (paused : ∀ r, s.find? context.key = some r → P context.key (r.pause context now)) :
    (s.markPaused context now).All P := by
  intro key q hq
  rw [find?_markPaused] at hq
  split at hq
  · subst key
    obtain rfl := Option.some.inj hq
    cases hr : s.find? context.key with
    | none => exact new
    | some r => exact paused r hr
  · exact h key q hq

theorem All.markReady (h : s.All P) {k : String}
    (ready : ∀ r, s.find? k = some r → P k { r with ready := true }) :
    (s.markReady k).2.All P := by
  intro key q hq
  rw [find?_markReady] at hq
  split at hq
  · subst key
    obtain ⟨r, hr, rfl⟩ := Option.map_eq_some_iff.mp hq
    exact ready r hr
  · exact h key q hq

end

/-- Every record is kept under the key it carries, so a record says where it was found. -/
def Keyed (s : RecordStore) : Prop := s.All fun key r => r.key = key

theorem keyed_empty : empty.Keyed := all_empty _

theorem Keyed.save {s : RecordStore} (h : s.Keyed) (e : Record) : (s.save e).Keyed :=
  All.save h rfl fun r hr => (r.merge_key e).trans (h _ r hr)

theorem Keyed.markPaused {s : RecordStore} (h : s.Keyed) (context : Record) (now : Instant) :
    (s.markPaused context now).Keyed := All.markPaused h rfl fun r hr => h _ r hr

theorem Keyed.markReady {s : RecordStore} (h : s.Keyed) (k : String) :
    (s.markReady k).2.Keyed := All.markReady h fun r hr => h _ r hr

/-! ## Stores that writes have made -/

/-- The writes of a store, as they go into its history. -/
inductive Write
  | save (e : Record)
  | pause (context : Record) (now : Instant)
  | ready (key : String)

def write (s : RecordStore) : Write → RecordStore
  | .save e => s.save e
  | .pause context now => s.markPaused context now
  | .ready key => (s.markReady key).2

def ofWrites (ws : List Write) : RecordStore := ws.foldl write empty

theorem Keyed.write {s : RecordStore} (h : s.Keyed) : ∀ w : Write, (s.write w).Keyed
  | .save e => h.save e
  | .pause context now => h.markPaused context now
  | .ready key => h.markReady key

theorem keyed_ofWrites (ws : List Write) : (ofWrites ws).Keyed := by
  suffices ∀ s : RecordStore, s.Keyed → (ws.foldl write s).Keyed from this _ keyed_empty
  induction ws with
  | nil => exact fun _ h => h
  | cons w ws ih => exact fun s h => ih _ (h.write w)

end RecordStore

/-! ## Requests -/

namespace State

theorem grows_reply (x : Exposure) (fault : Option Fault) (r : Request) (s : State) :
    s.events.Grows (reply x fault r s).2.events := by
  have hw := written_reply x fault r s
  generalize (reply x fault r s).2.events = t at hw ⊢
  cases hw with
  | spared => exact .rfl
  | saved e => exact s.events.grows_save e
  | paused context => exact s.events.grows_markPaused context _
  | ready key => exact s.events.grows_markReady key

end State

/-- No procedure takes anything back, whatever it does and whatever fails. It is enough to look at
requests one by one. -/
theorem Proc.leads_grows {α : Type} (x : Exposure) : ∀ (p : Proc α) (s : State),
    Leads (State.reply x) (fun _ t => s.events.Grows t.events) p s
  | .done _, _ => leads_done.mpr .rfl
  | .ask r next, s => leads_ask.mpr fun fault =>
      (leads_grows x (next _) _).mono fun _ _ h => (State.grows_reply x fault r s).trans h

end Rendezvous
