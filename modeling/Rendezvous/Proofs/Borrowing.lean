import Rendezvous.Proofs.Detection
import Rendezvous.Proofs.Exactness

/-!
# Observations that come back

A wait without a type is for some other event of its order. An event that is saved under its own
key is not enough to end it: a poller leaves out the record of the wait when it looks for one. But
a wait that is made ready takes the observation in, and so there is a second record that shows it,
under another key. By way of another wait of its order a wait can thus be ended by its own
observation, and of two waits that are for any event of an order it always is (`pair_resumes`).

`resumed_from_elsewhere` says that there is no other way: if no event of the order was saved under
another key, there is another wait of the order, and that was made ready itself or had an event
saved under its key.
-/

namespace Rendezvous

open Proc

/-! ## Runs in which only pollers make waits ready -/

namespace Activity

/-- Events are saved, bare waits are paused, and it is left to pollers to make them ready. This is
how a process works whose events come in by way of the store. -/
def LeftToPollers : Activity → Prop
  | .save _ | .poll _ | .wait _ => True
  | .pause context => context.isObserved = false
  | .accept _ _ | .verify _ => False

/-- The cycle makes the wait ready: it finds it unready and leaves it ready. -/
def Resumes (wait : Record) (s : State) : Activity → Prop
  | .poll p => s.events.find? wait.key = some wait ∧ wait.ready = false
      ∧ (s.perform (.poll p)).events.isReady wait.key = true
  | _ => False

theorem exists_resumes (p : Poller) (s : State) (key : String)
    (h : (s.events.find? key).any (fun w => w.key = key && w.eventType = none && !w.ready) = true)
    (hflag : (s.perform (.poll p)).events.isReady key = true) :
    ∃ wait : Record, wait.key = key ∧ wait.eventType = none ∧ (poll p).Resumes wait s := by
  obtain ⟨wait, hw, hflags⟩ := (Option.any_eq_true _ _).mp h
  simp only [Bool.and_eq_true, decide_eq_true_eq, Bool.not_eq_true'] at hflags
  obtain ⟨⟨rfl, ht⟩, hready⟩ := hflags
  exact ⟨wait, rfl, ht, hw, hready, hflag⟩

end Activity

/-- An event was saved under the key. It was there on its own account, and not because a poller had
put it there. -/
def SavedUnder (past : List Activity) (key : String) (e : Record) : Prop :=
  .save e ∈ past ∧ e.key = key

theorem SavedUnder.mono {past later : List Activity} {key : String} {e : Record}
    (h : SavedUnder past key e) : SavedUnder (past ++ later) key e :=
  ⟨List.mem_append_left _ h.1, h.2⟩

/-- Where observations come from. A record that is no wait is of the order of an event saved under
its key, and a wait that holds an observation was made ready or had an event saved under its key. -/
structure RecordStore.Sourced (past : List Activity) (s : RecordStore) : Prop where
  keyed : s.Keyed
  saved : s.All fun key r => r.paused = false → ∃ e, SavedUnder past key e ∧ e.order = r.order
  held : s.All fun key r => r.paused = true → r.isObserved = true →
    r.ready = true ∨ ∃ e, SavedUnder past key e

namespace RecordStore

variable {past later : List Activity} {s : RecordStore}

theorem sourced_empty (past : List Activity) : empty.Sourced past :=
  ⟨keyed_empty, all_empty _, all_empty _⟩

theorem Sourced.mono (h : s.Sourced past) : s.Sourced (past ++ later) where
  keyed := h.keyed
  saved key r hr hp := by
    obtain ⟨e, he, ho⟩ := h.saved key r hr hp
    exact ⟨e, he.mono, ho⟩
  held key r hr hp hobs := by
    rcases h.held key r hr hp hobs with hready | ⟨e, he⟩
    · exact .inl hready
    · exact .inr ⟨e, he.mono⟩

theorem Sourced.save (h : s.Sourced past) (e : Record) :
    (s.save e).Sourced (past ++ [.save e]) where
  keyed := h.keyed.save e
  saved := by
    have hnew : SavedUnder (past ++ [.save e]) e.key e := ⟨by simp, rfl⟩
    refine All.save h.mono.saved (fun _ => ⟨e, hnew, rfl⟩) fun r hr hp => ⟨e, hnew, ?_⟩
    rw [Record.merge_eq_of_not_paused e ((r.merge_paused e).symm.trans hp)]
    rfl
  held := by
    have hnew : SavedUnder (past ++ [.save e]) e.key e := ⟨by simp, rfl⟩
    exact All.save h.mono.held (fun _ _ => .inr ⟨e, hnew⟩) fun r hr _ _ => .inr ⟨e, hnew⟩

theorem Sourced.markPaused (h : s.Sourced past) {context : Record}
    (hc : context.isObserved = false) (now : Instant) :
    (s.markPaused context now).Sourced past where
  keyed := h.keyed.markPaused context now
  saved := All.markPaused h.saved (fun hp => by cases hp) fun r _ hp => by cases hp
  held := by
    refine All.markPaused h.held (fun _ hobs => absurd (hc.symm.trans hobs) (by decide)) ?_
    intro r hr _ hobs
    cases hp : r.paused with
    | true => exact h.held _ r hr hp hobs
    | false =>
        obtain ⟨e, he, -⟩ := h.saved _ r hr hp
        exact .inr ⟨e, he⟩

end RecordStore

/-! ## What a cycle does, when nothing fails -/

namespace Poller

variable {p : Poller} {acc acc' : Tally} {wait : Record} {s t : State} {past : List Activity}

theorem Visited.errors_eq (h : p.Visited .none acc wait s acc' t) : acc'.errors = acc.errors := by
  cases h with
  | ready | nothing => rfl
  | lookupFailed _ hx => cases hx
  | delegated _ _ h =>
      cases h with
      | ignored => rfl
      | settled _ _ h =>
          cases h with
          | lookupFailed hx => cases hx
          | markFailed _ _ _ _ hx => cases hx
          | _ => rfl

/-- A visit copies observations only into waits that it makes ready, so a wait that is unready with
an observation got it by a save. -/
theorem Visited.sourced (h : p.Visited .none acc wait s acc' t)
    (hw : s.events.find? wait.key = some wait) (hp : wait.paused = true)
    (hs : s.events.Sourced past) : t.events.Sourced past where
  keyed := (h.renewed hw hp).keyed hs.keyed
  saved key r hr hpaused := by
    obtain ⟨q, hq, hqr⟩ := (h.renewed hw hp).only key r hr
    have hqp : q.paused = false := hqr.paused_eq.symm.trans hpaused
    obtain rfl := hqr.same hqp
    exact hs.saved key r hq hqp
  held key r hr hpaused hobs := by
    by_cases hk : key = wait.key
    · subst hk
      rcases h.left hw hp with ⟨hsame, -, -⟩ | ⟨e, q, ready, hq, hleft⟩
      · rw [hsame] at hr
        exact hs.held _ r hr hpaused hobs
      · obtain rfl := Option.some.inj (hq.symm.trans hr)
        rcases hleft.taken with ⟨hkey, -⟩ | ⟨rfl, -⟩
        · exact .inl (hleft.resumed hkey h.errors_eq)
        · rcases hs.held _ q hw hp hobs with hready | hsaved
          · exact absurd (hleft.unready.symm.trans hready) (by decide)
          · exact .inr hsaved
    · exact hs.held key r ((h.find?_other hk).symm.trans hr) hpaused hobs

theorem perform_poll (p : Poller) (s : State) : s.perform (.poll p)
    = (runFaulty .none (fun _ => none) (p.visitAll .zero s.events.paused) s).2 := by
  change (run State.answer p.sweep s).2 = _
  rw [← runFaulty_nofault .none, runFaulty_sweep .none p rfl]

theorem sourced_poll (p : Poller) (hs : s.events.Sourced past) :
    (s.perform (.poll p)).events.Sourced past := by
  rw [perform_poll]
  exact keeps_visitAll (P := fun t => t.events.Sourced past)
    (fun _ _ _ _ _ hv hw hp ht => hv.sourced hw hp ht) (pending_paused hs.keyed) hs _ _

theorem renewed_poll (p : Poller) (hs : s.events.Keyed) :
    s.events.Renewed (s.perform (.poll p)).events := by
  rw [perform_poll]
  exact renewed_visitAll .none p (pending_paused hs) _ _

/-- In a cycle in which nothing fails each wait has its turn, and all calls made for it are
answered. -/
theorem exists_turn_poll (p : Poller) (hs : s.events.Keyed)
    (hw : s.events.find? wait.key = some wait) (hp : wait.paused = true) :
    ∃ own acc₁ acc₂ s₁ s₂, Turned p .none s wait own acc₁ acc₂ s₁ s₂ (s.perform (.poll p))
      ∧ ∀ c ∈ own, c.answered = true := by
  have hm : wait ∈ s.events.paused := RecordStore.mem_paused.mpr ⟨⟨_, hw⟩, hp⟩
  obtain ⟨acc₁, acc₂, s₁, s₂, hturn⟩ :=
    exists_turn .none p _ (fun _ => none) .zero s (pending_paused hs) hm
  refine ⟨_, acc₁, acc₂, s₁, s₂, perform_poll p s ▸ hturn, fun c hc => ?_⟩
  refine answered_of_none (fun _ => none) p.sweep s c ?_
  rw [calls_sweep .none p rfl hs]
  exact List.mem_cons_of_mem _ (List.mem_flatMap.mpr ⟨wait, hm, hc⟩)

/-- Only a wait is made ready by a cycle, for nothing else is listed. -/
theorem paused_of_resumed_poll (p : Poller) (hs : s.events.Keyed)
    (hw : s.events.find? wait.key = some wait) (hready : wait.ready = false)
    (hflag : (s.perform (.poll p)).events.isReady wait.key = true) : wait.paused = true := by
  cases hp : wait.paused with
  | true => rfl
  | false =>
      obtain ⟨q, hq, hwq⟩ := (renewed_poll p hs).kept _ wait hw
      obtain rfl := hwq.same hp
      rw [RecordStore.isReady, hq] at hflag
      exact absurd (hready.symm.trans hflag) (by decide)

end Poller

theorem State.sourced_perform {past : List Activity} {s : State} {a : Activity}
    (ha : a.LeftToPollers) (hs : s.events.Sourced past) :
    (s.perform a).events.Sourced (past ++ [a]) := by
  cases a with
  | save e => exact hs.save e
  | pause context => exact (hs.markPaused ha _).mono
  | poll p => exact (Poller.sourced_poll p hs).mono
  | wait ms => exact hs.mono
  | accept | verify => exact ha.elim

theorem State.sourced_performAll {s : State} (hs : s.events = .empty) {past : List Activity}
    (hpast : ∀ a ∈ past, a.LeftToPollers) : (s.performAll past).events.Sourced past := by
  induction past using List.reverseRecOn with
  | nil =>
      rw [performAll, List.foldl_nil, hs]
      exact RecordStore.sourced_empty []
  | append_singleton past a ih =>
      rw [performAll_append]
      have hbefore := ih fun b hb => hpast b (List.mem_append_left _ hb)
      exact sourced_perform (hpast a (by simp)) hbefore

/-! ## Where a wait gets its observation from -/

/-- Of two waits for any event of an order one observation ends both in two cycles, also when it is
under the key of one of them. -/
theorem pair_resumes (p q : Poller) {s : State} (hs : s.events.Keyed) {r₁ r₂ : Record}
    (h₁ : s.events.find? r₁.key = some r₁) (h₂ : s.events.find? r₂.key = some r₂)
    (hp₁ : r₁.paused = true) (hp₂ : r₂.paused = true) (ht₁ : r₁.eventType = none)
    (ht₂ : r₂.eventType = none) (hb₁ : Text.blank r₁.key = false) (hb₂ : Text.blank r₂.key = false)
    (ho : r₁.order = r₂.order) (hne : r₁.key ≠ r₂.key) (hobs : r₁.isObserved = true)
    (hready : r₂.ready = false) :
    (s.performAll [.poll p, .poll q]).events.isReady r₁.key = true
      ∧ (s.performAll [.poll p, .poll q]).events.isReady r₂.key = true := by
  obtain ⟨own, acc, acc', s₁, s₂, hturn, hown⟩ := Poller.exists_turn_poll p hs h₂ hp₂
  have hrenewed := Poller.renewed_poll p hs
  generalize ht : s.perform (.poll p) = t at hturn hrenewed
  have htwo : s.performAll [.poll p, .poll q] = t.perform (.poll q) := by rw [← ht]; rfl
  have hgrows : t.events.Grows (t.perform (.poll q)).events := (leads_grows .none q.sweep t).run
  rw [htwo]
  have hflag : t.events.isReady r₂.key = true := hturn.resumed_of_other hp₂ hready hb₂
    (fun c hc => .inl (hown c hc)) ht₂ h₁ hne ho hobs
  refine ⟨?_, hgrows.isReady hflag⟩
  obtain ⟨e, q₂, he, hq₂, htime, -⟩ := hturn.takes hp₂ hready hb₂ hown hflag
  obtain ⟨q₁, hq₁, hq₁r⟩ := hrenewed.kept _ r₁ h₁
  cases hready₁ : q₁.ready with
  | true =>
      refine hgrows.isReady ?_
      rw [RecordStore.isReady, hq₁]
      exact hready₁
  | false =>
      have hkey₁ : q₁.key = r₁.key := hq₁r.key_eq
      obtain ⟨p₂, hp₂', hrp₂⟩ := hrenewed.kept _ r₂ h₂
      obtain rfl := Option.some.inj (hq₂.symm.trans hp₂')
      have hobs₂ : q₂.isObserved = true := by
        obtain ⟨r, -, -, hr, rfl, -⟩ := RecordStore.candidate?_some he
        exact (congrArg Option.isSome htime).trans hr
      rw [← hkey₁] at hq₁ hb₁ hne ⊢
      obtain ⟨own', _, _, _, _, hturn', hown'⟩ := Poller.exists_turn_poll q (hrenewed.keyed hs) hq₁
        (hq₁r.paused_eq.trans hp₁)
      refine hturn'.resumed_of_other (hq₁r.paused_eq.trans hp₁) hready₁ hb₁
        (fun c hc => .inl (hown' c hc)) (hq₁r.type_eq.trans ht₁) hq₂ ?_ ?_ hobs₂
      · rw [hrp₂.key_eq]
        exact hne.symm
      · rw [hrp₂.order_eq, hq₁r.order_eq]
        exact ho.symm

/-- **What ends a wait for any event.** Let events be saved, bare waits be paused and cycles be run,
from an empty store. When a cycle makes a wait ready that has no type, then under another key an
event of its order was saved before, or there is another wait of its order that holds an
observation, and either was made ready itself or had an event saved under its key before. -/
theorem resumed_from_elsewhere {s : State} (hs : s.events = .empty) {past : List Activity}
    (hpast : ∀ a ∈ past, a.LeftToPollers) {a : Activity} {wait : Record}
    (ht : wait.eventType = none) (ha : a.Resumes wait (s.performAll past)) :
    ∃ key, key ≠ wait.key ∧ ((∃ e, SavedUnder past key e ∧ e.order = wait.order)
      ∨ ∃ r, (s.performAll (past ++ [a])).events.find? key = some r ∧ r.paused = true
        ∧ r.order = wait.order ∧ r.isObserved = true
        ∧ (r.ready = true ∨ ∃ e, SavedUnder past key e)) := by
  cases a with
  | poll p =>
      obtain ⟨hw, hready, hflag⟩ := ha
      have hstart := State.sourced_performAll hs hpast
      have hend := Poller.sourced_poll p hstart
      have hp := Poller.paused_of_resumed_poll p hstart.keyed hw hready hflag
      obtain ⟨own, acc, acc', s₁, s₂, hturn, -⟩ := Poller.exists_turn_poll p hstart.keyed hw hp
      obtain ⟨e, he⟩ := hturn.candidate_of_resumed hp hready hflag
      obtain ⟨r, ⟨key, hr⟩, ho, hobs, -, -, hother⟩ := RecordStore.candidate?_some he
      have hkey : r.key = key := hturn.renewed.keyed hstart.keyed key r hr
      refine ⟨key, hkey ▸ hother ht, ?_⟩
      cases hpaused : r.paused with
      | false =>
          obtain ⟨q, hq, hqr⟩ := hturn.renewed.only key r hr
          have hqp : q.paused = false := hqr.paused_eq.symm.trans hpaused
          obtain rfl := hqr.same hqp
          obtain ⟨e, he, hoe⟩ := hstart.saved key r hq hqp
          exact .inl ⟨e, he, hoe.trans ho⟩
      | true =>
          have hrest := (hturn.visited.renewed hturn.kept hp).trans hturn.rest
          obtain ⟨q, hq, hrq⟩ := hrest.kept key r hr
          have hqp : q.paused = true := hrq.paused_eq.trans hpaused
          have hqobs : q.isObserved = true := hrq.observed hobs
          rw [State.performAll_append]
          exact .inr ⟨q, hq, hqp, hrq.order_eq.trans ho, hqobs, hend.held key q hq hqp hqobs⟩
  | _ => exact ha.elim

def anyEvent (key : String) : Record := .placeholder key "ORD1" none default

def dispatch : Record := .observed "ORD1" "SHIPPED" .null default

def freshStart : State := State.initial fun _ => ⟨0, 1, fun _ => 0⟩

/-- A wait is left behind, and a shipment is saved under a key of its own, where a poller finds
it. -/
def dispatchSaved : List Activity := [.pause (anyEvent "ORD1::A"), .save dispatch]

theorem dispatch_from_elsewhere : ∃ wait : Record,
    (Activity.poll ⟨"x", ⟨none⟩, 0⟩).Resumes wait (freshStart.performAll dispatchSaved)
      ∧ ∃ key, key ≠ wait.key ∧ ∃ e, SavedUnder dispatchSaved key e ∧ e.order = wait.order := by
  have hleft : ∀ a ∈ dispatchSaved ++ [.poll ⟨"x", ⟨none⟩, 0⟩], a.LeftToPollers := by
    simp [dispatchSaved, Activity.LeftToPollers, anyEvent, Record.placeholder, Record.isObserved]
  obtain ⟨wait, hkey, ht, hresumes⟩ := Activity.exists_resumes ⟨"x", ⟨none⟩, 0⟩
    (freshStart.performAll dispatchSaved) "ORD1::A" (by rfl) (by rfl)
  obtain ⟨key, hne, h | ⟨r, hr, hp, -⟩⟩ := resumed_from_elsewhere rfl
    (fun a ha => hleft a (List.mem_append_left _ ha)) ht hresumes
  · exact ⟨wait, hresumes, key, hne, h⟩
  · have hwaits : (freshStart.performAll
        (dispatchSaved ++ [.poll ⟨"x", ⟨none⟩, 0⟩])).events.paused.map (·.key) = ["ORD1::A"] := rfl
    have hm := List.mem_map_of_mem (f := (·.key)) (RecordStore.mem_paused.mpr ⟨⟨key, hr⟩, hp⟩)
    rw [hwaits, List.mem_singleton, (State.sourced_performAll rfl hleft).keyed key r hr] at hm
    exact absurd (hm.trans hkey.symm) hne

/-- Two waits are left behind, and a shipment is saved under the key of the second one. The first
wait can only get it from there. -/
def dispatchBorrowed : List Activity :=
  [.pause (anyEvent "ORD1::A"), .pause (anyEvent "ORD1::B"),
    .save { dispatch with key := "ORD1::B" }]

/-- The second wait is ended all the same, by way of the first one: in the first cycle the first
wait takes over what the second one holds, and in the second cycle it gives that back. -/
theorem ended_by_own_observation : ¬ ∀ (s : State) (past : List Activity) (a : Activity)
    (wait : Record), s.events = .empty → (∀ b ∈ past, b.LeftToPollers ∧ b.Honest) →
      wait.eventType = none → a.Resumes wait (s.performAll past) →
        ∃ key e, key ≠ wait.key ∧ SavedUnder past key e ∧ e.order = wait.order := by
  intro h
  have hleft : ∀ a ∈ dispatchBorrowed, a.LeftToPollers ∧ a.Honest := by
    simp [dispatchBorrowed, Activity.LeftToPollers, Activity.Honest, anyEvent, dispatch,
      Record.placeholder, Record.observed, Record.isObserved]
  obtain ⟨wait, hkey, ht, hresumes⟩ := Activity.exists_resumes ⟨"x", ⟨none⟩, 0⟩
    (freshStart.performAll dispatchBorrowed) "ORD1::B" (by rfl) (by rfl)
  obtain ⟨key, e, hne, ⟨hsaved, hunder⟩, -⟩ := h freshStart _ _ wait rfl hleft ht hresumes
  have he : e = { dispatch with key := "ORD1::B" } := by simpa [dispatchBorrowed] using hsaved
  rw [← hunder, he, hkey] at hne
  exact hne rfl

end Rendezvous
