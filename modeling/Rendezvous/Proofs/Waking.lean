import Rendezvous.Proofs.Flags
import Rendezvous.Proofs.Receivers
import Rendezvous.Proofs.Sweeping

/-!
# No waiter is left behind

Engines share a record store, and each may have a mailbox of its own: a wait can be made ready by an
engine whose mailbox does not hold the receiver, before the receiver is registered or after. A poll
cycle makes up for it. When it is over, nobody registered in the poller's mailbox still waits for a
key that is ready, whoever made it so and when (`sweep_wakes`), and it counts exactly those it found
waiting for keys that were ready before.

The run before the cycle is any sequence of moves on the store and the mailboxes, with any calls on
the store failing. What it keeps up is `State.Sound`.
-/

namespace Rendezvous

open Proc

/-! ## What runs keep up -/

namespace State

/-- Records are kept under their keys, only waits are ready, and every mailbox keeps track of its
receivers, which were registered for the keys `registered`. -/
structure Sound (registered : MailboxId → List String) (s : State) : Prop where
  keyed : s.events.Keyed
  readyPaused : s.events.ReadyPaused
  tracks : ∀ id, (s.mailboxes id).Tracks (registered id)

variable {registered : MailboxId → List String} {s : State}

theorem sound_initial (retention : MailboxId → Retention) :
    (initial retention).Sound fun _ => [] where
  keyed := RecordStore.keyed_empty
  readyPaused _ _ h := by cases h
  tracks _ := Mailbox.tracks_empty

theorem Sound.register (h : s.Sound registered) (id : MailboxId) {a : Mailbox}
    {keys : List String} (ha : a.Tracks keys) :
    (s.setMailbox id a).Sound fun i => if i = id then keys else registered i where
  keyed := h.keyed
  readyPaused := h.readyPaused
  tracks i := by
    rw [setMailbox]
    by_cases hi : i = id
    · simpa [hi] using ha
    · simpa [hi] using h.tracks i

theorem Sound.setMailbox (h : s.Sound registered) {id : MailboxId} {a : Mailbox}
    (ha : a.Tracks (registered id)) : (s.setMailbox id a).Sound registered := by
  have hsame : (fun i => if i = id then registered id else registered i) = registered := by
    funext i
    split
    · rw [‹i = id›]
    · rfl
  exact hsame ▸ h.register id ha

theorem Sound.complete (h : s.Sound registered) (id : MailboxId) (key : String) (result : Record) :
    (s.complete id key result).2.Sound registered :=
  h.setMailbox ((h.tracks id).complete _ _ _ _)

theorem Sound.saved (h : s.Sound registered) (e : Record) : (s.saved e).Sound registered :=
  ⟨h.keyed.save e, h.readyPaused.save e, h.tracks⟩

theorem Sound.resumed (h : s.Sound registered) {e r : Record}
    (hr : s.events.find? e.key = some r) (hp : r.paused = true) (g : Engine) :
    (s.resumed g e).Sound registered := by
  have hs : Sound registered { s with events := (s.events.markReady e.key).2 } := by
    refine ⟨h.keyed.markReady _, h.readyPaused.markReady fun q hq => ?_, h.tracks⟩
    obtain rfl := Option.some.inj (hr.symm.trans hq)
    exact hp
  unfold State.resumed
  cases g.mailbox with
  | none => exact hs
  | some mailbox => exact hs.complete _ _ _

end State

section

variable {registered : MailboxId → List String} {x : Exposure} {s t : State}

theorem Engine.Accepted.sound {g : Engine} {e : Record} {o : Outcome}
    (h : g.Accepted x e s o t) (hs : s.Sound registered) : t.Sound registered := by
  cases h with
  | ignored => exact hs
  | @settled s₁ o t hkey hp h =>
      have h₁ : s₁.Sound registered := by
        cases hp with
        | saved => exact hs.saved e
        | failed => exact hs
      cases h with
      | resumeReady hr hp => exact h₁.resumed hr hp g
      | _ => exact h₁

theorem Engine.Woken.sound {g : Engine} {r : Record} {n : Nat} (h : g.Woken r s n t)
    (hs : s.Sound registered) : t.Sound registered := by
  cases h with
  | woken => exact hs.complete _ _ _
  | _ => exact hs

theorem Poller.Visited.sound {p : Poller} {acc acc' : Tally} {wait : Record}
    (h : p.Visited x acc wait s acc' t) (hs : s.Sound registered) : t.Sound registered := by
  cases h with
  | ready hr h => exact h.sound hs
  | lookupFailed | nothing => exact hs
  | delegated hr hc h => exact h.sound hs

end

/-! ## Moves -/

/-- What can happen on the sides that share a store. Each side is known by its mailbox, and an
engine belongs to the side whose mailbox it has. -/
inductive Move
  | register (mailbox : MailboxId) (key : String)
  | drop (mailbox : MailboxId) (receiver : Nat)
  | receive (mailbox : MailboxId) (receiver : Nat)
  | accept (g : Engine) (e : Record)
  | poll (p : Poller)
  | save (e : Record)
  | pause (context : Record)
  | wait (ms : Nat)

/-- A state, and the keys that the receivers of each mailbox were registered for, which the
mailboxes themselves keep only while they wait. -/
structure World where
  state : State
  registered : MailboxId → List String

namespace World

def initial (retention : MailboxId → Retention) : World := ⟨.initial retention, fun _ => []⟩

/-- A move, with `faults n` befalling its `n`th request. Moves do not overlap. -/
def perform (w : World) (faults : Nat → Option Fault) : Move → World
  | .register id key =>
    { state := (runFaulty .all faults (Proc.register id key) w.state).2
      registered := fun i => if i = id then w.registered id ++ [key] else w.registered i }
  | .drop id receiver =>
    { w with state := w.state.setMailbox id ((w.state.mailboxes id).drop receiver) }
  | .receive id receiver =>
    { w with state := w.state.setMailbox id ((w.state.mailboxes id).receive receiver).2 }
  | .accept g e => { w with state := (runFaulty .all faults (g.accept e) w.state).2 }
  | .poll p => { w with state := (runFaulty .all faults p.sweep w.state).2 }
  | .save e => { w with state := (runFaulty .all faults (Proc.events (.save e)) w.state).2 }
  | .pause context =>
    { w with state := (runFaulty .all faults (Proc.events (.markPaused context)) w.state).2 }
  | .wait ms => { w with state := w.state.wait ms }

def run (w : World) (moves : List ((Nat → Option Fault) × Move)) : World :=
  moves.foldl (fun w m => w.perform m.1 m.2) w

theorem leads_register (id : MailboxId) (key : String) (s : State) :
    Leads (State.reply .all) (fun _ t => t = (s.register id key).2) (Proc.register id key) s := by
  refine leads_request fun _ => ?_
  change Leads _ _ (if (s.register id key).1.2 then _ else _) (s.register id key).2
  split
  · exact leads_note (leads_done.mpr rfl)
  · exact leads_done.mpr rfl

theorem leads_sound (c : EventCall) {registered : MailboxId → List String} {s : State}
    (h : s.Sound registered) (hc : (State.answerEvents c s).2.Sound registered) :
    Leads (State.reply .all) (fun _ t => t.Sound registered) (Proc.events c) s :=
  leads_events (f := .done) (leads_done.mpr hc) fun _ _ => leads_done.mpr h

theorem sound_perform {w : World} (h : w.state.Sound w.registered) (faults : Nat → Option Fault)
    (m : Move) : (w.perform faults m).state.Sound (w.perform faults m).registered := by
  cases m with
  | register id key =>
      have hrun := (leads_register id key w.state).runFaulty faults
      rw [perform, hrun]
      exact h.register id ((h.tracks id).register _ _ key)
  | drop id receiver => exact h.setMailbox ((h.tracks id).drop receiver)
  | receive id receiver => exact h.setMailbox ((h.tracks id).receive receiver)
  | accept g e => exact ((Engine.leads_accept .all g e w.state).runFaulty faults).sound h
  | poll p =>
      have hsweep := (Poller.leads_sweep (x := .all) (p := p)
        (J := fun _ _ t => t.Sound w.registered) (fun _ _ _ _ _ _ hs hv => hv.sound hs) h).runFaulty
          faults
      rcases hsweep with hs | ⟨-, -, hs⟩
      · exact hs
      · rw [perform, hs]
        exact h
  | save e => exact (leads_sound (.save e) h (h.saved e)).runFaulty faults
  | pause context =>
      have hp : State.Sound w.registered
          { w.state with events := w.state.events.markPaused context w.state.now } :=
        ⟨h.keyed.markPaused _ _, h.readyPaused.markPaused _ _, h.tracks⟩
      exact (leads_sound (.markPaused context) h hp).runFaulty faults
  | wait ms => exact ⟨h.keyed, h.readyPaused, h.tracks⟩

theorem sound_run {w : World} (h : w.state.Sound w.registered)
    (moves : List ((Nat → Option Fault) × Move)) :
    (w.run moves).state.Sound (w.run moves).registered := by
  induction moves generalizing w with
  | nil => exact h
  | cons m ms ih => exact ih (sound_perform h m.1 m.2)

end World

/-! ## What a cycle does to its mailbox -/

theorem State.complete_mailbox (s : State) (id : MailboxId) (key : String) (result : Record) :
    (s.complete id key result).2.mailboxes id
      = ((s.mailboxes id).complete (s.retention id) s.clock key result).2 := if_pos rfl

theorem State.complete_delivered (s : State) (id : MailboxId) (key : String) (result : Record) :
    (s.complete id key result).1.delivered = (s.mailboxes id).waiting key :=
  Mailbox.delivered_complete ..

/-- An accepted event makes its key ready and completes the mailbox, or it does neither. The flags
of other keys stay as they are in both cases. -/
theorem Engine.Accepted.effect {x : Exposure} {g : Engine} {e : Record} {s t : State} {o : Outcome}
    {id : MailboxId} (hg : g.mailbox = some id) (h : g.Accepted x e s o t) :
    (t.mailboxes id = s.mailboxes id ∧ ∀ key, t.events.isReady key = s.events.isReady key)
    ∨ (t.mailboxes id = ((s.mailboxes id).complete (s.retention id) s.clock e.key e).2
      ∧ ∀ key, key ≠ e.key → t.events.isReady key = s.events.isReady key) := by
  cases h with
  | ignored => exact .inl ⟨rfl, fun _ => rfl⟩
  | @settled s₁ o t hkey hp h =>
      have h₁ : s₁.mailboxes = s.mailboxes ∧ s₁.retention = s.retention ∧ s₁.clock = s.clock
          ∧ ∀ key, s₁.events.isReady key = s.events.isReady key := by
        cases hp with
        | saved => exact ⟨rfl, rfl, rfl, s.events.isReady_save e⟩
        | failed => exact ⟨rfl, rfl, rfl, fun _ => rfl⟩
      obtain ⟨hm, hret, hclock, hready⟩ := h₁
      cases h with
      | resumeReady =>
          refine .inr ⟨?_, fun key hne => ?_⟩
          · unfold State.resumed
            rw [hg]
            change (State.complete _ id e.key e).2.mailboxes id = _
            rw [State.complete_mailbox, ← hm, ← hret, ← hclock]
          · rw [State.resumed_events, RecordStore.isReady, RecordStore.find?_markReady, if_neg hne]
            exact hready key
      | _ => exact .inl ⟨congrFun hm id, hready⟩

/-- No two waits of a list have the same key. -/
theorem RecordStore.nodup_paused {s : RecordStore} (h : s.Keyed) :
    (s.paused.map (·.key)).Nodup := by
  have hperm : (s.paused.map (·.key)).Perm ((s.records.values.filter (·.paused)).map (·.key)) :=
    (Sorting.sort_perm _ _).map _
  refine hperm.nodup_iff.mpr ((List.filter_sublist.map _).nodup ?_)
  have hkeys : s.records.values.map (·.key) = s.records.entries.map (·.1) := by
    rw [Table.values, List.map_map]
    refine List.map_congr_left fun entry hm => ?_
    exact h entry.1 entry.2 (Table.mem_entries.mp hm)
  rw [hkeys]
  exact s.records.nodup_keys

/-- The invariant of a cycle, with the tally `acc` so far and `rest` still to be visited. Only waits
that are yet to come, and were ready when the cycle began, have receivers left; and they have those
that `acc` has not counted of `total`. -/
structure Poller.Waking (registered : MailboxId → List String) (id : MailboxId) (total : Nat)
    (acc : Tally) (rest : List Record) (s : State) : Prop where
  sound : s.Sound registered
  nodup : (rest.map (·.key)).Nodup
  left : ∀ i key, (registered id)[i]? = some key → s.events.isReady key = true →
    (s.mailboxes id).isPending i = true → ∃ wait ∈ rest, wait.key = key ∧ wait.ready = true
  counted : acc.woken
    + ((rest.filter (·.ready)).flatMap fun wait => (s.mailboxes id).live wait.key).length = total

namespace Poller.Waking

variable {registered : MailboxId → List String} {id : MailboxId} {total : Nat}
  {acc acc' : Tally} {wait : Record} {rest : List Record} {s t : State}

/-- A visit that leaves the mailbox as it was, with nobody waiting for it. -/
theorem skip (h : Waking registered id total acc (wait :: rest) s) (ht : t.Sound registered)
    (hw : wait.ready = true → (s.mailboxes id).waiting wait.key = 0)
    (hm : t.mailboxes id = s.mailboxes id)
    (hready : ∀ key, t.events.isReady key = s.events.isReady key) (hacc : acc'.woken = acc.woken) :
    Waking registered id total acc' rest t where
  sound := ht
  nodup := (List.nodup_cons.mp h.nodup).2
  left i key hi hk hp := by
    rw [hm] at hp
    obtain ⟨w, hmem, hwk, hwr⟩ := h.left i key hi (hready key ▸ hk) hp
    rcases List.mem_cons.mp hmem with rfl | hmem
    · have hlive : i ∈ (s.mailboxes id).live w.key :=
        (h.sound.tracks id).mem_live.mpr ⟨hp, hwk ▸ hi⟩
      have hnone := hw hwr
      rw [Mailbox.waiting_eq, List.length_eq_zero_iff] at hnone
      rw [hnone] at hlive
      cases hlive
    · exact ⟨w, hmem, hwk, hwr⟩
  counted := by
    have hc := h.counted
    rw [hm, hacc]
    cases hr : wait.ready with
    | true =>
        rw [List.filter_cons_of_pos hr, List.flatMap_cons, List.length_append,
          ← Mailbox.waiting_eq, hw hr, Nat.zero_add] at hc
        exact hc
    | false => rwa [List.filter_cons_of_neg (by simp [hr])] at hc

/-- A visit that completes the mailbox. -/
theorem wake (h : Waking registered id total acc (wait :: rest) s) (ht : t.Sound registered)
    {ret : Retention} {now : Nat} {result : Record}
    (hm : t.mailboxes id = ((s.mailboxes id).complete ret now wait.key result).2)
    (hready : ∀ key, key ≠ wait.key → t.events.isReady key = s.events.isReady key)
    (hacc : acc'.woken = acc.woken
      + if wait.ready then (s.mailboxes id).waiting wait.key else 0) :
    Waking registered id total acc' rest t where
  sound := ht
  nodup := (List.nodup_cons.mp h.nodup).2
  left i key hi hk hp := by
    rw [hm] at hp
    have hne : key ≠ wait.key := by
      rintro rfl
      rw [(h.sound.tracks id).not_pending_complete hi] at hp
      cases hp
    rw [Mailbox.isPending_complete, Bool.and_eq_true] at hp
    obtain ⟨w, hmem, hwk, hwr⟩ := h.left i key hi (hready key hne ▸ hk) hp.1
    rcases List.mem_cons.mp hmem with rfl | hmem
    · exact absurd hwk.symm hne
    · exact ⟨w, hmem, hwk, hwr⟩
  counted := by
    have hrest : ((rest.filter (·.ready)).flatMap fun w => (t.mailboxes id).live w.key)
        = (rest.filter (·.ready)).flatMap fun w => (s.mailboxes id).live w.key := by
      refine List.flatMap_congr fun w hmem => ?_
      have hne : w.key ≠ wait.key := fun heq => (List.nodup_cons.mp h.nodup).1
        (List.mem_map.mpr ⟨w, List.mem_of_mem_filter hmem, heq⟩)
      rw [hm, (h.sound.tracks id).live_complete hne]
    have hc := h.counted
    rw [hrest, hacc]
    cases hr : wait.ready with
    | true =>
        rw [List.filter_cons_of_pos hr, List.flatMap_cons, List.length_append] at hc
        rw [if_pos rfl, Nat.add_assoc]
        exact hc
    | false => rwa [List.filter_cons_of_neg (by simp [hr])] at hc

/-- What a visit does to the invariant: the receivers it wakes are those that the invariant had left
for its wait. -/
theorem visit {x : Exposure} {p : Poller} (hp : p.engine.mailbox = some id)
    (h : Waking registered id total acc (wait :: rest) s) (hv : p.Visited x acc wait s acc' t) :
    Waking registered id total acc' rest t := by
  have ht := hv.sound h.sound
  cases hv with
  | ready hr hw =>
      cases hw with
      | detached hn => cases hp.symm.trans hn
      | unready hn => cases hr.symm.trans hn
      | idle hm hw =>
          obtain rfl := Option.some.inj (hp.symm.trans hm)
          exact h.skip ht (fun _ => hw) rfl (fun _ => rfl) rfl
      | woken hm =>
          obtain rfl := Option.some.inj (hp.symm.trans hm)
          refine h.wake ht (State.complete_mailbox ..) (fun _ _ => rfl) ?_
          rw [if_pos hr, State.complete_delivered]
  | lookupFailed hr | nothing hr =>
      exact h.skip ht (fun hr' => by cases hr.symm.trans hr') rfl (fun _ => rfl) rfl
  | @delegated e o _ hr hc ha =>
      obtain ⟨_, -, -, -, rfl, -⟩ := RecordStore.candidate?_some hc
      have hacc : (Tally.counting { acc with paused := acc.paused + 1 } o).woken = acc.woken := by
        cases o <;> rfl
      rcases ha.effect hp with ⟨hm, hready⟩ | ⟨hm, hready⟩
      · exact h.skip ht (fun hr' => by cases hr.symm.trans hr') hm hready hacc
      · refine h.wake ht hm hready ?_
        rw [hacc, if_neg (by simp [hr])]
        rfl

end Poller.Waking

/-- The waits that are ready are those of the keys that are. -/
theorem RecordStore.exists_ready_wait {s : RecordStore} (hk : s.Keyed) (hr : s.ReadyPaused)
    {key : String} :
    (∃ wait ∈ s.paused, wait.key = key ∧ wait.ready = true) ↔ s.isReady key = true := by
  rw [isReady, Option.any_eq_true]
  constructor
  · rintro ⟨wait, hm, rfl, hready⟩
    obtain ⟨⟨k, hf⟩, -⟩ := mem_paused.mp hm
    obtain rfl := hk k wait hf
    exact ⟨wait, hf, hready⟩
  · rintro ⟨r, hf, hready⟩
    exact ⟨r, mem_paused.mpr ⟨⟨key, hf⟩, hr key r hf hready⟩, hk key r hf, hready⟩

/-- The numbers of the receivers that wait for a key that is ready, which a cycle should wake. -/
def Poller.waitingReady (keys : List String) (a : Mailbox) (s : RecordStore) : List Nat :=
  (List.range keys.length).filter fun i => a.isPending i && keys[i]?.any s.isReady

theorem Poller.waking_start {registered : MailboxId → List String} {s : State}
    (h : s.Sound registered) (id : MailboxId) :
    Waking registered id (waitingReady (registered id) (s.mailboxes id) s.events).length .zero
      s.events.paused s where
  sound := h
  nodup := RecordStore.nodup_paused h.keyed
  left _ _ _ hk _ := (RecordStore.exists_ready_wait h.keyed h.readyPaused).mpr hk
  counted := by
    have hnodup : ((s.events.paused.filter (·.ready)).map (·.key)).Nodup :=
      (List.filter_sublist.map _).nodup (RecordStore.nodup_paused h.keyed)
    have hcount := (h.tracks id).length_flatMap_live hnodup
    rw [List.flatMap_map] at hcount
    change 0 + _ = _
    rw [Nat.zero_add]
    refine hcount.trans (congrArg List.length (List.filter_congr fun i _ => ?_))
    refine congrArg _ (congrArg (Option.any · _) (funext fun key => ?_))
    rw [Bool.eq_iff_iff, ← RecordStore.exists_ready_wait h.keyed h.readyPaused]
    simp only [List.mem_map, List.mem_filter, decide_eq_true_eq]
    constructor
    · rintro ⟨wait, ⟨hm, hr⟩, hk⟩
      exact ⟨wait, hm, hk, hr⟩
    · rintro ⟨wait, hm, hk, hr⟩
      exact ⟨wait, ⟨hm, hr⟩, hk⟩

/-- Waking receivers leaves alone what every mailbox holds for receivers to come. -/
theorem Engine.held_wake (g : Engine) (r : Record) (s : State) (id : MailboxId) :
    ((run State.answer (g.wake r) s).2.mailboxes id).held = (s.mailboxes id).held := by
  have hw := (leads_wake .none g r s).run
  generalize (run State.answer (g.wake r) s).2 = t at hw ⊢
  generalize (run State.answer (g.wake r) s).1 = n at hw
  cases hw with
  | detached | unready | idle => rfl
  | @woken mailbox _ _ hw =>
      by_cases hid : id = mailbox
      · subst hid
        rw [State.complete_mailbox]
        exact Mailbox.held_complete hw
      · exact congrArg Mailbox.held (if_neg hid)

/-- **No waiter is left behind.** After any run, a poll cycle that succeeds in listing the waits
leaves no receiver of its mailbox waiting for a key that was ready when the cycle began or that the
cycle made ready; it counts as woken exactly those that were waiting for keys ready at its
beginning; and waking never touches the completions that mailboxes hold. -/
theorem sweep_wakes (retention : MailboxId → Retention)
    (moves : List ((Nat → Option Fault) × Move)) (p : Poller) {id : MailboxId}
    (hp : p.engine.mailbox = some id) (faults : Nat → Option Fault) (hf : faults 0 = none) :
    let w := (World.initial retention).run moves
    let s := w.state
    let t := (runFaulty .all faults p.sweep s).2
    (∀ i key, (w.registered id)[i]? = some key →
        s.events.isReady key = true ∨ t.events.isReady key = true →
        (t.mailboxes id).isPending i = false)
      ∧ (runFaulty .all faults p.sweep s).1.woken
        = (Poller.waitingReady (w.registered id) (s.mailboxes id) s.events).length
      ∧ ∀ (g : Engine) (r : Record) (u : State) (j : MailboxId),
        ((run State.answer (g.wake r) u).2.mailboxes j).held = (u.mailboxes j).held := by
  intro w s t
  have hsound : s.Sound w.registered := World.sound_run (State.sound_initial retention) moves
  have hrun := (Poller.leads_visitAll (x := .all) (fun _ _ _ _ _ _ h hv => h.visit hp hv)
    s.events.paused .zero s (Poller.waking_start hsound id)).runFaulty fun n => faults (n + 1)
  rw [← Poller.runFaulty_sweep .all p hf] at hrun
  refine ⟨fun i key hi hk => ?_, hrun.counted, Engine.held_wake⟩
  have hgrows : s.events.Grows t.events := (leads_grows .all p.sweep s).runFaulty faults
  have hready : t.events.isReady key = true := hk.elim hgrows.isReady fun h => h
  refine Bool.eq_false_iff.mpr fun hpending => ?_
  obtain ⟨_, hm, -⟩ := hrun.left i key hi hready hpending
  cases hm

/-- A wait with a receiver on one side is made ready on another, which leaves the receiver
waiting. -/
def elsewhere : List ((Nat → Option Fault) × Move) :=
  [.register 0 "ORD1::SHIPPED",
    .pause (.placeholder "ORD1::SHIPPED" "ORD1" (some "SHIPPED") default),
    .accept ⟨some 1⟩ (.observed "ORD1" "SHIPPED" .null default)].map fun m => (fun _ => none, m)

theorem elsewhere_wakes :
    let s := ((World.initial fun _ => ⟨0, 1, fun _ => 0⟩).run elsewhere).state
    let cycle := runFaulty .all (fun _ => none) (Poller.sweep ⟨"x", ⟨some 0⟩, 0⟩) s
    (s.mailboxes 0).isPending 0 = true ∧ cycle.1.woken = 1
      ∧ (cycle.2.mailboxes 0).isPending 0 = false := by
  obtain ⟨hleft, hwoken, -⟩ := sweep_wakes (fun _ => ⟨0, 1, fun _ => 0⟩) elsewhere
    ⟨"x", ⟨some 0⟩, 0⟩ rfl (fun _ => none) rfl
  refine ⟨by decide +kernel, hwoken.trans ?_, hleft 0 "ORD1::SHIPPED" ?_ (.inl ?_)⟩
  · decide +kernel
  · decide +kernel
  · decide +kernel

end Rendezvous
