import Rendezvous.Proofs.Calls
import Rendezvous.Proofs.Sweeping

/-!
# What a visit leaves behind

A visit to a wait writes under the key of the wait and nowhere else. Either it leaves the store as
it was, or the wait takes in the event that was detected for it, as far as that could be saved, and
becomes ready, as far as that could be recorded (`Poller.Left`). The event is one that was observed
before, so no observation comes up that was not there, and none of a type is lost except to one
that is at least as new (`RecordStore.Renewed`).
-/

namespace Rendezvous

open Proc

/-! ## The newest observation -/

namespace RecordStore

variable {s : RecordStore} {order eventType : String} {wait e r : Record}

/-- An observation of the order and type with the greatest time. There may be several, and any one
of them will do. -/
structure Newest (s : RecordStore) (order eventType : String) (r : Record) : Prop where
  observes : s.Observes order eventType r
  greatest : ∀ q, s.Observes order eventType q → Record.timeLe q.observedAt r.observedAt = true

theorem newest_of_latest? (h : s.latest? order eventType = some r) :
    s.Newest order eventType r :=
  ⟨observes_of_latest? h, fun q hq => Record.timeLe_of_newest? h q (mem_candidates.mpr hq)⟩

/-- For a wait with a type the newest observation of its order and type is taken up. -/
theorem newest_of_candidate? (ht : wait.eventType = some eventType)
    (h : s.candidate? wait = some e) :
    ∃ r, s.Newest wait.order eventType r ∧ e = { r with key := wait.key } := by
  obtain ⟨r, hr, rfl⟩ := Option.map_eq_some_iff.mp h
  rw [ht] at hr
  exact ⟨r, newest_of_latest? hr, rfl⟩

theorem candidate?_of_observes (ht : wait.eventType = some eventType)
    (h : s.Observes wait.order eventType r) : ∃ e, s.candidate? wait = some e := by
  obtain ⟨q, hq⟩ := h.latest?
  refine ⟨{ q with key := wait.key }, ?_⟩
  rw [candidate?, ht]
  exact Option.map_eq_some_iff.mpr ⟨q, hq, rfl⟩

/-- For a wait without a type any observation of its order under another key is good enough. -/
theorem candidate?_of_other (ht : wait.eventType = none) {key : String}
    (hr : s.find? key = some r) (ho : r.order = wait.order) (hobs : r.isObserved = true)
    (hne : r.key ≠ wait.key) : ∃ e, s.candidate? wait = some e := by
  have hmem : r ∈ (s.byOrder wait.order).filter fun e => e.isObserved && e.key ≠ wait.key :=
    List.mem_filter.mpr ⟨mem_byOrder.mpr ⟨⟨key, hr⟩, ho⟩, by simp [hobs, hne]⟩
  obtain ⟨q, hq⟩ := Record.newest?_ne_none hmem
  refine ⟨{ q with key := wait.key }, ?_⟩
  rw [candidate?, ht]
  exact Option.map_eq_some_iff.mpr ⟨q, hq, rfl⟩

/-- What is taken up the wait accepts. -/
theorem awaits_of_candidate? (h : s.candidate? wait = some e) :
    wait.awaits e.eventType = true := by
  obtain ⟨r, -, -, -, rfl, htype, -⟩ := candidate?_some h
  unfold Record.awaits
  cases ht : wait.eventType with
  | none => rfl
  | some t => exact decide_eq_true (htype t ht)

end RecordStore

/-! ## Accepting under the key of a wait -/

namespace Record

variable {r e : Record}

theorem merge_observedAt (ha : r.awaits e.eventType = true) (he : e.isObserved = true) :
    (r.merge e).observedAt = e.observedAt := by
  obtain ⟨t, ht⟩ := Option.isSome_iff_exists.mp he
  unfold merge
  split
  · rw [absorb, ht]; rfl
  · rw [absorb, ht]; rfl

theorem merge_payload (ha : r.awaits e.eventType = true) : (r.merge e).payload = e.payload := by
  unfold merge
  split <;> rfl

end Record

namespace Engine.Accepted

variable {x : Exposure} {g : Engine} {e r : Record} {s t : State} {o : Outcome}

theorem find?_other (h : g.Accepted x e s o t) {key : String} (hne : key ≠ e.key) :
    t.events.find? key = s.events.find? key := by
  cases h with
  | ignored => rfl
  | settled _ hpersisted hsettled =>
      rw [hsettled.find?_other hne]
      cases hpersisted with
      | saved => exact (s.events.find?_save e key).trans (if_neg hne)
      | failed => rfl

/-- A wait for the event takes it in, unless it could not be saved, and becomes ready, unless it
was, or that could not be found out or recorded. -/
theorem find?_self (h : g.Accepted x e s o t) (hr : s.events.find? e.key = some r)
    (hp : r.paused = true) (ha : r.awaits e.eventType = true) :
    (∃ q, t.events.find? e.key = some { q with ready := r.ready || o = .resumeReady }
      ∧ (Text.blank e.key = false ∧ q = r.merge e
        ∨ q = r ∧ (Text.blank e.key = true ∨ x.events = true)))
      ∧ (Text.blank e.key = false → o ≠ .lookupFailed → o ≠ .markFailed → r.ready = false →
        o = .resumeReady) := by
  cases h with
  | ignored hblank =>
      refine ⟨⟨r, ?_, .inr ⟨rfl, .inl hblank⟩⟩, fun hkey => ?_⟩
      · simpa using hr
      · exact absurd (hblank.symm.trans hkey) (by decide)
  | @settled s₁ _ _ hkey hpersisted hsettled =>
      obtain ⟨q, hq, hqr, hqp, hqa, hqready⟩ : ∃ q, s₁.events.find? e.key = some q
          ∧ (Text.blank e.key = false ∧ q = r.merge e
            ∨ q = r ∧ (Text.blank e.key = true ∨ x.events = true))
          ∧ q.paused = true ∧ q.awaits e.eventType = true ∧ q.ready = r.ready := by
        cases hpersisted with
        | saved =>
            refine ⟨r.merge e, ?_, .inl ⟨hkey, rfl⟩, (r.merge_paused e).trans hp,
              (Record.merge_awaits_of_paused e hp _).trans ha, r.merge_ready e⟩
            rw [State.saved, RecordStore.find?_save, if_pos rfl, hr]
        | failed hx => exact ⟨r, hr, .inr ⟨rfl, .inr hx⟩, hp, ha, rfl⟩
      refine ⟨⟨q, ?_, hqr⟩, fun _ hlookup hmark hnot => ?_⟩
      · rw [hsettled.find?_self, hq, Option.map_some, hqready]
      · cases hsettled with
        | lookupFailed => exact absurd rfl hlookup
        | markFailed => exact absurd rfl hmark
        | resumeReady => rfl
        | absent hnone => cases hq.symm.trans hnone
        | unpaused hq' hp' =>
            obtain rfl := Option.some.inj (hq.symm.trans hq')
            exact absurd (hqp.symm.trans hp') (by decide)
        | mismatch hq' _ ha' =>
            obtain rfl := Option.some.inj (hq.symm.trans hq')
            exact absurd (hqa.symm.trans ha') (by decide)
        | alreadyReady hq' _ _ hready =>
            obtain rfl := Option.some.inj (hq.symm.trans hq')
            exact absurd (hready.symm.trans (hqready.trans hnot)) (by decide)

end Engine.Accepted

/-! ## What a visit does to the record of the wait -/

namespace Poller

variable {x : Exposure} {p : Poller} {acc acc' : Tally} {wait : Record} {s t : State}

/-- What a visit that takes the event `e` up makes of the record of `wait`: the wait has taken `e`
in or not, and is ready or not. -/
structure Left (x : Exposure) (acc : Tally) (wait e : Record) (s : State) (acc' : Tally)
    (q : Record) (ready : Bool) : Prop where
  unready : wait.ready = false
  candidate : s.events.candidate? wait = some e
  taken : Text.blank wait.key = false ∧ q = wait.merge e
    ∨ q = wait ∧ (Text.blank wait.key = true ∨ x.events = true)
  resumed : Text.blank wait.key = false → acc'.errors = acc.errors → ready = true
  counted : acc'.resumed = acc.resumed + ready.toNat

theorem Visited.find?_other (h : p.Visited x acc wait s acc' t) {key : String}
    (hne : key ≠ wait.key) : t.events.find? key = s.events.find? key := by
  cases h with
  | ready _ h => cases h <;> rfl
  | lookupFailed | nothing => rfl
  | delegated _ hc h =>
      obtain ⟨r, -, -, -, rfl, -⟩ := RecordStore.candidate?_some hc
      exact h.find?_other hne

theorem Visited.left (h : p.Visited x acc wait s acc' t)
    (hw : s.events.find? wait.key = some wait) (hp : wait.paused = true) :
    (t.events = s.events ∧ acc'.resumed = acc.resumed ∧ (wait.ready = false →
        acc'.errors = acc.errors → s.events.candidate? wait = none))
      ∨ ∃ e q ready, t.events.find? wait.key = some { q with ready := ready }
        ∧ Left x acc wait e s acc' q ready := by
  cases h with
  | ready hr h =>
      refine .inl ⟨by cases h <;> rfl, rfl, fun hr' => ?_⟩
      exact absurd (hr.symm.trans hr') (by decide)
  | lookupFailed => exact .inl ⟨rfl, rfl, fun _ herr => absurd herr (Nat.succ_ne_self _)⟩
  | nothing _ hc => exact .inl ⟨rfl, rfl, fun _ _ => hc⟩
  | @delegated e o _ hr hc h =>
      have hkey : e.key = wait.key := by
        obtain ⟨r, -, -, -, rfl, -⟩ := RecordStore.candidate?_some hc
        rfl
      obtain ⟨⟨q, hq, htaken⟩, hready⟩ :=
        h.find?_self (hkey ▸ hw) hp (RecordStore.awaits_of_candidate? hc)
      rw [hkey, hr, Bool.false_or] at hq
      rw [hkey] at htaken hready
      refine .inr ⟨e, q, _, hq, hr, hc, htaken, fun hblank herr => ?_, ?_⟩
      · refine decide_eq_true (hready hblank ?_ ?_ hr)
        · rintro rfl
          exact absurd herr (Nat.succ_ne_self _)
        · rintro rfl
          exact absurd herr (Nat.succ_ne_self _)
      · cases o <;> rfl

end Poller

/-! ## What becomes of observations -/

/-- The record is of the key, order and type it was of and a wait if it was one. It holds an
observation if it held one, of a time no earlier if it is of a type; and no wait, no change. -/
structure Record.Renewed (r q : Record) : Prop where
  key_eq : q.key = r.key
  order_eq : q.order = r.order
  type_eq : q.eventType = r.eventType
  paused_eq : q.paused = r.paused
  observed : r.isObserved = true → q.isObserved = true
  later : r.eventType.isSome = true → timeLe r.observedAt q.observedAt = true
  same : r.paused = false → q = r

theorem Record.Renewed.rfl {r : Record} : r.Renewed r where
  key_eq := Eq.refl _
  order_eq := Eq.refl _
  type_eq := Eq.refl _
  paused_eq := Eq.refl _
  observed := id
  later _ := timeLe_refl _
  same _ := Eq.refl _

theorem Record.Renewed.trans {r p q : Record} (h : r.Renewed p) (h' : p.Renewed q) :
    r.Renewed q where
  key_eq := h'.key_eq.trans h.key_eq
  order_eq := h'.order_eq.trans h.order_eq
  type_eq := h'.type_eq.trans h.type_eq
  paused_eq := h'.paused_eq.trans h.paused_eq
  observed := h'.observed ∘ h.observed
  later ht := timeLe_trans _ _ _ (h.later ht) (h'.later (h.type_eq ▸ ht))
  same hp := (h'.same (h.paused_eq.trans hp)).trans (h.same hp)

/-- The records are those there were, renewed, and what one of a type shows has been shown before by
one of its order and type. -/
structure RecordStore.Renewed (s t : RecordStore) : Prop where
  kept : ∀ key r, s.find? key = some r → ∃ q, t.find? key = some q ∧ r.Renewed q
  only : ∀ key q, t.find? key = some q → ∃ r, s.find? key = some r ∧ r.Renewed q
  shown : ∀ order eventType q, t.Observes order eventType q → ∃ r, s.Observes order eventType r
    ∧ r.observedAt = q.observedAt ∧ r.payload = q.payload

namespace RecordStore

variable {s t u : RecordStore} {order eventType : String}

theorem Renewed.rfl : s.Renewed s :=
  ⟨fun _ r hr => ⟨r, hr, .rfl⟩, fun _ q hq => ⟨q, hq, .rfl⟩,
    fun _ _ q hq => ⟨q, hq, Eq.refl _, Eq.refl _⟩⟩

theorem Renewed.trans (h : s.Renewed t) (h' : t.Renewed u) : s.Renewed u where
  kept key r hr := by
    obtain ⟨p, hp, hrp⟩ := h.kept key r hr
    obtain ⟨q, hq, hpq⟩ := h'.kept key p hp
    exact ⟨q, hq, hrp.trans hpq⟩
  only key q hq := by
    obtain ⟨p, hp, hpq⟩ := h'.only key q hq
    obtain ⟨r, hr, hrp⟩ := h.only key p hp
    exact ⟨r, hr, hrp.trans hpq⟩
  shown order eventType q hq := by
    obtain ⟨p, hp, htime, hpayload⟩ := h'.shown order eventType q hq
    obtain ⟨r, hr, htime', hpayload'⟩ := h.shown order eventType p hp
    exact ⟨r, hr, htime'.trans htime, hpayload'.trans hpayload⟩

theorem Renewed.keyed (h : s.Renewed t) (hs : s.Keyed) : t.Keyed := by
  intro key q hq
  obtain ⟨r, hr, hrq⟩ := h.only key q hq
  exact hrq.key_eq.trans (hs key r hr)

/-- Each observation of a type is still there, or one at least as new. -/
theorem Renewed.observes (h : s.Renewed t) {r : Record} (hr : s.Observes order eventType r) :
    ∃ q, t.Observes order eventType q ∧ Record.timeLe r.observedAt q.observedAt = true := by
  obtain ⟨key, hkey⟩ := hr.kept
  obtain ⟨q, hq, hrq⟩ := h.kept key r hkey
  refine ⟨q, ⟨⟨key, hq⟩, hrq.order_eq.trans hr.order_eq, hrq.type_eq.trans hr.type_eq,
    hrq.observed hr.observed⟩, hrq.later ?_⟩
  rw [hr.type_eq]
  rfl

/-- What is newest now shows what was newest before, so the waits of a cycle that come late see what
those see that come early. -/
theorem Renewed.newest (h : s.Renewed t) {q : Record} (hq : t.Newest order eventType q) :
    ∃ r, s.Newest order eventType r ∧ r.observedAt = q.observedAt ∧ r.payload = q.payload := by
  obtain ⟨r, hr, htime, hpayload⟩ := h.shown order eventType q hq.observes
  refine ⟨r, ⟨hr, fun p hp => ?_⟩, htime, hpayload⟩
  obtain ⟨p', hp', hle⟩ := h.observes hp
  rw [htime]
  exact Record.timeLe_trans _ _ _ hle (hq.greatest p' hp')

end RecordStore

namespace Poller

variable {x : Exposure} {p : Poller} {acc acc' : Tally} {wait e q : Record} {s t : State}
  {ready : Bool}

theorem Left.standing (h : Left x acc wait e s acc' q ready) (hp : wait.paused = true) :
    q.key = wait.key ∧ q.order = wait.order ∧ q.eventType = wait.eventType
      ∧ q.paused = wait.paused := by
  rcases h.taken with ⟨-, rfl⟩ | ⟨rfl, -⟩
  · refine ⟨wait.merge_key e, ?_, Record.merge_eventType_of_paused e hp, wait.merge_paused e⟩
    rcases Record.merge_order_of_paused e hp with h' | ⟨-, h'⟩
    · exact h'
    · obtain ⟨r, -, ho, -, rfl, -⟩ := RecordStore.candidate?_some h.candidate
      exact h'.trans ho
  · exact ⟨rfl, rfl, rfl, rfl⟩

/-- The wait shows what it showed, or what the event shows. -/
theorem Left.shows (h : Left x acc wait e s acc' q ready) :
    q.observedAt = wait.observedAt ∧ q.payload = wait.payload
      ∨ q.observedAt = e.observedAt ∧ q.payload = e.payload := by
  rcases h.taken with ⟨-, rfl⟩ | ⟨rfl, -⟩
  · have ha := RecordStore.awaits_of_candidate? h.candidate
    have htime : e.isObserved = true := by
      obtain ⟨r, -, -, hobs, rfl, -⟩ := RecordStore.candidate?_some h.candidate
      exact hobs
    exact .inr ⟨Record.merge_observedAt ha htime, Record.merge_payload ha⟩
  · exact .inl ⟨rfl, rfl⟩

theorem Left.renewed (h : Left x acc wait e s acc' q ready) (hp : wait.paused = true)
    (hw : s.events.find? wait.key = some wait) : wait.Renewed { q with ready := ready } := by
  obtain ⟨hk, ho, ht, hpq⟩ := h.standing hp
  refine ⟨hk, ho, ht, hpq, fun hobs => ?_, fun htype => ?_, fun hnot => ?_⟩
  · change q.observedAt.isSome = true
    rcases h.shows with ⟨htime, -⟩ | ⟨htime, -⟩
    · rw [htime]
      exact hobs
    · obtain ⟨r, -, -, hr, he, -⟩ := RecordStore.candidate?_some h.candidate
      rw [htime, he]
      exact hr
  · change Record.timeLe wait.observedAt q.observedAt = true
    rcases h.shows with ⟨htime, -⟩ | ⟨htime, -⟩
    · rw [htime]
      exact Record.timeLe_refl _
    · obtain ⟨eventType, htype⟩ := Option.isSome_iff_exists.mp htype
      obtain ⟨r, hr, he⟩ := RecordStore.newest_of_candidate? htype h.candidate
      rw [htime, he]
      cases hobs : wait.observedAt with
      | none => rfl
      | some time =>
          have hself : s.events.Observes wait.order eventType wait :=
            ⟨⟨_, hw⟩, rfl, htype, by rw [Record.isObserved, hobs]; rfl⟩
          rw [← hobs]
          exact hr.greatest wait hself
  · exact absurd (hp.symm.trans hnot) (by decide)

/-- A visit makes up no observation, and loses none of a type but to a newer one. What a wait takes
in is the newest of its type, and the wait itself is among those it was taken from. -/
theorem Visited.renewed (h : p.Visited x acc wait s acc' t)
    (hw : s.events.find? wait.key = some wait) (hp : wait.paused = true) :
    s.events.Renewed t.events := by
  rcases h.left hw hp with ⟨hsame, -, -⟩ | ⟨e, q, ready, hq, hleft⟩
  · rw [hsame]
    exact .rfl
  · have hrenewed := hleft.renewed hp hw
    refine ⟨fun key r hr => ?_, fun key r hr => ?_, fun order eventType r hr => ?_⟩
    · by_cases hk : key = wait.key
      · subst hk
        obtain rfl := Option.some.inj (hw.symm.trans hr)
        exact ⟨_, hq, hrenewed⟩
      · exact ⟨r, (h.find?_other hk).trans hr, .rfl⟩
    · by_cases hk : key = wait.key
      · subst hk
        obtain rfl := Option.some.inj (hq.symm.trans hr)
        exact ⟨wait, hw, hrenewed⟩
      · exact ⟨r, (h.find?_other hk).symm.trans hr, .rfl⟩
    · obtain ⟨⟨key, hkey⟩, ho, ht, hobs⟩ := hr
      by_cases hk : key = wait.key
      · subst hk
        obtain rfl := Option.some.inj (hq.symm.trans hkey)
        have hwo : wait.order = order := hrenewed.order_eq.symm.trans ho
        have hwt : wait.eventType = some eventType := hrenewed.type_eq.symm.trans ht
        rcases hleft.shows with ⟨htime, hpayload⟩ | ⟨htime, hpayload⟩
        · refine ⟨wait, ⟨⟨_, hw⟩, hwo, hwt, ?_⟩, htime.symm, hpayload.symm⟩
          rw [Record.isObserved, ← htime]
          exact hobs
        · obtain ⟨r, hr, rfl⟩ := RecordStore.newest_of_candidate? hwt hleft.candidate
          exact ⟨r, hwo ▸ hr.observes, htime.symm, hpayload.symm⟩
      · exact ⟨r, ⟨⟨key, (h.find?_other hk).symm.trans hkey⟩, ho, ht, hobs⟩, rfl, rfl⟩

end Poller

end Rendezvous
