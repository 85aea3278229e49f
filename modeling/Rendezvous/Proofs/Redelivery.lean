import Mathlib.Logic.Function.Iterate
import Rendezvous.Proofs.Acceptance

/-!
# Events that come again

An event may be delivered more than once. The first time it is taken in: the store keeps what it
says, and if a wait is over because of it the wait is made ready and its receivers have the event.
After that the event has nothing left to do (`State.Took`), so when it comes again, at once or
later, the stores, the mailboxes and the clock stay as they are.
-/

namespace Rendezvous

/-! ## Merging twice -/

namespace Record

/-- The record says already what the observation `e` says, so that taking it over changes
nothing. -/
structure Absorbed (r e : Record) : Prop where
  observedAt_eq : (e.observedAt <|> r.observedAt) = r.observedAt
  payload_eq : e.payload = r.payload
  status_eq : (e.status <|> r.status) = r.status
  recordedAt_eq : e.recordedAt = r.recordedAt

variable {r e : Record}

theorem absorbed_absorb (r e : Record) : (r.absorb e).Absorbed e where
  observedAt_eq := by
    change (e.observedAt <|> (e.observedAt <|> r.observedAt)) = (e.observedAt <|> r.observedAt)
    cases e.observedAt <;> rfl
  payload_eq := rfl
  status_eq := by
    change (e.status <|> (e.status <|> r.status)) = (e.status <|> r.status)
    cases e.status <;> rfl
  recordedAt_eq := rfl

theorem Absorbed.absorb_eq (h : r.Absorbed e) : r.absorb e = r := by
  unfold absorb
  rw [h.observedAt_eq, h.payload_eq, h.status_eq, h.recordedAt_eq]

/-- A record that is no wait has taken in an event if it says what the event says. -/
theorem Absorbed.merge_eq_of_not_paused (h : r.Absorbed e) (hpaused : r.paused = false)
    (horder : r.order = e.order) (htype : r.eventType = e.eventType) : r.merge e = r := by
  have hsame : { r with order := e.order, eventType := e.eventType } = r := by
    rw [← horder, ← htype]
  rw [Record.merge_eq_of_not_paused e hpaused, hsame]
  exact h.absorb_eq

/-- Merging an event in a second time changes nothing: a wait has its order filled in by then, and
with the one that would be filled in again. -/
theorem merge_merge (r e : Record) : (r.merge e).merge e = r.merge e := by
  cases hpaused : r.paused with
  | false =>
      refine Absorbed.merge_eq_of_not_paused ?_ ((r.merge_paused e).trans hpaused) ?_ ?_
      · rw [Record.merge_eq_of_not_paused e hpaused]
        exact absorbed_absorb _ e
      · rw [Record.merge_eq_of_not_paused e hpaused]
        rfl
      · rw [Record.merge_eq_of_not_paused e hpaused]
        rfl
  | true =>
      cases hawaits : r.awaits e.eventType with
      | false =>
          have hkept : r.merge e = r := by simp [merge, hpaused, hawaits]
          rw [hkept, hkept]
      | true =>
          generalize horder : (if r.order = "" then e.order else r.order) = order
          have hmerge : r.merge e = { r with order := order }.absorb e := by
            simp [merge, hpaused, hawaits, horder]
          have hfill : (if order = "" then e.order else order) = order := by
            rw [← horder]
            by_cases ho : r.order = "" <;> simp [ho]
          have hpaused' : (r.merge e).paused = true := (r.merge_paused e).trans hpaused
          have hawaits' : (r.merge e).awaits e.eventType = true :=
            (merge_awaits_of_paused e hpaused _).trans hawaits
          rw [hmerge] at hpaused' hawaits' ⊢
          have habsorbed := absorbed_absorb { r with order := order } e
          generalize hq : { r with order := order }.absorb e = q at *
          have hqorder : q.order = order := by rw [← hq]; rfl
          have hsame : { q with order := if q.order = "" then e.order else q.order } = q := by
            rw [hqorder, hfill, ← hqorder]
          rw [merge, if_pos hpaused', if_pos hawaits', hsame]
          exact habsorbed.absorb_eq

/-- What an event leaves behind where nothing was kept is all that it says. -/
theorem fresh_merge (e : Record) : e.fresh.merge e = e.fresh := by
  refine Absorbed.merge_eq_of_not_paused ⟨?_, rfl, ?_, rfl⟩ rfl rfl rfl
  · change (e.observedAt <|> e.observedAt) = e.observedAt
    cases e.observedAt <;> rfl
  · change (e.status <|> e.status) = e.status
    cases e.status <;> rfl

/-- Whether a wait is ready has no say in what is merged in. -/
theorem merge_made_ready (r e : Record) :
    { r with ready := true }.merge e = { r.merge e with ready := true } := by
  unfold merge
  change (if r.paused then if r.awaits e.eventType then _ else _ else _) = _
  split
  · split <;> rfl
  · rfl

end Record

/-- To save an event that is merged in already changes nothing. -/
theorem RecordStore.save_of_merge_eq {s : RecordStore} {e r : Record} (hr : s.find? e.key = some r)
    (h : r.merge e = r) : s.save e = s := by
  have hrecords : (s.save e).records = s.records := by
    refine Table.ext fun key => ?_
    have hfind := s.find?_save e key
    by_cases hkey : key = e.key
    · subst hkey
      rw [if_pos rfl, hr] at hfind
      exact hfind.trans ((congrArg some h).trans hr.symm)
    · rw [if_neg hkey] at hfind
      exact hfind
  cases s
  exact congrArg RecordStore.mk hrecords

/-! ## Accepting twice -/

namespace State

variable {s : State} {g : Engine} {e : Record}

/-- The state once the engine has taken the event in, alone and with nothing failing. -/
def accepted (s : State) (g : Engine) (e : Record) : State := (Proc.run answer (g.accept e) s).2

/-- The event has nothing left to do: it has no key, or what is kept under its key has it merged in
and is no wait for it that is not ready. -/
def Took (s : State) (e : Record) : Prop :=
  Text.blank e.key = true ∨ ∃ r, s.events.find? e.key = some r ∧ r.merge e = r
    ∧ (r.paused = true → r.awaits e.eventType = true → r.ready = true)

theorem accepted_cases (s : State) (g : Engine) (e : Record) :
    ∃ o, g.Accepted .none e s o (s.accepted g e) := ⟨_, (Engine.leads_accept .none g e s).run⟩

theorem Took.wait (h : s.Took e) (ms : Nat) : (s.wait ms).Took e := h

/-- An event that has nothing left to do does nothing. -/
theorem Took.accepted_eq (h : s.Took e) (g : Engine) : s.accepted g e = s := by
  obtain ⟨o, hway⟩ := s.accepted_cases g e
  generalize s.accepted g e = t at hway
  cases hway with
  | ignored => rfl
  | settled hkey hpersisted hsettled =>
      obtain hblank | ⟨r, hr, hmerge, hready⟩ := h
      · exact absurd (hkey.symm.trans hblank) (by decide)
      · have hsaved : s.saved e = s := by
          rw [saved, RecordStore.save_of_merge_eq hr hmerge]
        cases hpersisted with
        | failed hx => cases hx
        | saved =>
            rw [hsaved] at hsettled
            cases hsettled with
            | lookupFailed hx => cases hx
            | markFailed _ _ _ _ hx => cases hx
            | absent | unpaused | mismatch | alreadyReady => rfl
            | resumeReady hq hpaused hawaits hnot =>
                obtain rfl := Option.some.inj (hr.symm.trans hq)
                exact absurd (hnot.symm.trans (hready hpaused hawaits)) (by decide)

/-- An event that was taken in has nothing left to do: what is kept has it merged in, and a wait for
it was made ready. -/
theorem took_accepted (s : State) (g : Engine) (e : Record) : (s.accepted g e).Took e := by
  obtain ⟨o, hway⟩ := s.accepted_cases g e
  generalize s.accepted g e = t at hway
  cases hway with
  | ignored hblank => exact .inl hblank
  | settled _ hpersisted hsettled =>
      refine .inr ?_
      cases hpersisted with
      | failed hx => cases hx
      | saved =>
          obtain ⟨q, hq, hmerge⟩ : ∃ q, (s.saved e).events.find? e.key = some q
              ∧ q.merge e = q := by
            have hfind := s.events.find?_save e e.key
            rw [if_pos rfl] at hfind
            refine ⟨_, hfind, ?_⟩
            cases s.events.find? e.key with
            | none => exact e.fresh_merge
            | some r => exact r.merge_merge e
          cases hsettled with
          | lookupFailed hx => cases hx
          | markFailed _ _ _ _ hx => cases hx
          | absent hnone => cases hq.symm.trans hnone
          | unpaused hr hpaused =>
              obtain rfl := Option.some.inj (hq.symm.trans hr)
              exact ⟨q, hq, hmerge, fun h => absurd (hpaused.symm.trans h) (by decide)⟩
          | mismatch hr _ hawaits =>
              obtain rfl := Option.some.inj (hq.symm.trans hr)
              exact ⟨q, hq, hmerge, fun _ h => absurd (hawaits.symm.trans h) (by decide)⟩
          | alreadyReady hr _ _ hready =>
              obtain rfl := Option.some.inj (hq.symm.trans hr)
              exact ⟨q, hq, hmerge, fun _ _ => hready⟩
          | resumeReady hr _ _ _ =>
              obtain rfl := Option.some.inj (hq.symm.trans hr)
              refine ⟨{ q with ready := true }, ?_, ?_, fun _ _ => rfl⟩
              · rw [resumed_events, RecordStore.find?_markReady, if_pos rfl, hq]
                rfl
              · rw [Record.merge_made_ready, hmerge]

/-- An event that comes again, whenever it does, changes nothing. The first time has left a state in
which the second has nothing to do. -/
theorem accepted_wait_accepted (s : State) (g : Engine) (e : Record) (ms : Nat) :
    ((s.accepted g e).wait ms).accepted g e = (s.accepted g e).wait ms :=
  ((s.took_accepted g e).wait ms).accepted_eq g

theorem accepted_accepted (s : State) (g : Engine) (e : Record) :
    (s.accepted g e).accepted g e = s.accepted g e := (s.took_accepted g e).accepted_eq g

theorem iterate_accepted (g : Engine) (e : Record) (n : Nat) (s : State) :
    (fun t : State => t.accepted g e)^[n + 1] s = s.accepted g e := by
  induction n with
  | zero => rfl
  | succ n ih => rw [Function.iterate_succ_apply', ih, accepted_accepted]

end State

end Rendezvous
