import Rendezvous.Proofs.Pool
import Rendezvous.Proofs.Sweeping
import Rendezvous.Proofs.Verifying

/-!
# Between the look-up and the pause

A verification first looks its event up and then, in a second call, pauses its wait. The event can
come in between, under the key of the wait or another key, while pollers work from lists of waits
that are out of date. The event is not lost: once all of them are through, a poll cycle finds it for
the wait (`event_not_lost`).

What everybody relies on is `RecordStore.Window`: whatever is kept under the key of the wait is of
the order and type asked for, and so is what is kept under the key of the event, on which nobody
waits. Both are true before either record exists, and no thread breaks them: a poller only hands a
wait events of the wait's own order and type, and only saves under keys of waits.
-/

namespace Rendezvous

open Proc

/-- A key of several fields has a delimiter in it. -/
theorem Key.join_not_blank (a b : String) (l : List String) :
    Text.blank (Key.join (a :: b :: l)) = false := by
  refine Bool.eq_false_iff.mpr fun h => ?_
  have hmem : ':' ∈ (Key.join (a :: b :: l)).toList := by
    rw [Key.join, String.intercalate_cons_cons, String.toList_append, String.toList_append]
    exact List.mem_append_left _ (List.mem_append_right _ (by decide))
  exact absurd (List.all_eq_true.mp h ':' hmem) (by decide)

theorem Question.key_not_blank (q : Question) : Text.blank q.key = false := Key.join_not_blank ..

namespace Record

/-- A record of the order and type that `q` asks for, whether it is an event or a wait. -/
def Concerns (r : Record) (q : Question) : Prop :=
  r.order = q.order ∧ r.eventType = some q.eventType

variable {q : Question} {r : Record}

theorem Concerns.merge {c : Record} (h : r.Concerns q) (hc : c.Concerns q) :
    (r.merge c).Concerns q := by
  cases hp : r.paused with
  | true =>
      refine ⟨?_, by rw [merge_eventType_of_paused c hp, h.2]⟩
      rcases merge_order_of_paused c hp with ho | ⟨-, ho⟩
      · rw [ho, h.1]
      · rw [ho, hc.1]
  | false =>
      rw [merge_eq_of_not_paused c hp]
      exact hc

theorem Concerns.pause {context : Record} (h : r.Concerns q) (hc : context.Concerns q)
    (now : Instant) : (r.pause context now).Concerns q := by
  refine ⟨?_, ?_⟩
  · change (if r.order = "" then context.order else r.order) = q.order
    split
    · exact hc.1
    · exact h.1
  · change (context.eventType <|> r.eventType) = some q.eventType
    rw [hc.2]
    rfl

theorem Concerns.awaits (h : r.Concerns q) : r.awaits (some q.eventType) = true := by
  simp [Record.awaits, h.2]

end Record

/-! ## What everybody relies on -/

namespace RecordStore

/-- The store as a verification of `q` sees it while `e` may come in: under the two keys in question
there is nothing that could get in the way of either. -/
structure Window (q : Question) (e : Record) (s : RecordStore) : Prop where
  keyed : s.Keyed
  wait : s.All fun key r => key = q.key → r.Concerns q
  event : e.key ≠ q.key → s.All fun key r => key = e.key → r.Concerns q ∧ r.paused = false

namespace Window

variable {q : Question} {e : Record} {s : RecordStore}

/-- Neither record exists. -/
theorem opened (h : s.Keyed) (hq : s.find? q.key = none) (he : s.find? e.key = none) :
    s.Window q e where
  keyed := h
  wait key r hr hk := by
    rw [hk, hq] at hr
    cases hr
  event _ key r hr hk := by
    rw [hk, he] at hr
    cases hr

theorem save (h : s.Window q e) {c : Record}
    (hc : c.key = q.key ∨ c.key = e.key → c.Concerns q) : (s.save c).Window q e where
  keyed := h.keyed.save c
  wait := h.wait.save (fun hk => hc (.inl hk)) fun r hr hk =>
    (h.wait _ r hr hk).merge (hc (.inl hk))
  event hne := (h.event hne).save (fun hk => ⟨hc (.inr hk), rfl⟩) fun r hr hk =>
    have ⟨hrq, hp⟩ := h.event hne _ r hr hk
    ⟨hrq.merge (hc (.inr hk)), (r.merge_paused c).trans hp⟩

theorem markPaused (h : s.Window q e) {context : Record} (hk : context.key = q.key)
    (hc : context.Concerns q) (now : Instant) : (s.markPaused context now).Window q e where
  keyed := h.keyed.markPaused context now
  wait := h.wait.markPaused (fun _ => Record.Concerns.pause (r := context.fresh) hc hc now)
    fun r hr hq => (h.wait _ r hr hq).pause hc now
  event hne := by
    have helsewhere : e.key ≠ context.key := fun he => hne (he.trans hk)
    exact (h.event hne).markPaused (fun he => absurd he.symm helsewhere)
      fun _ _ he => absurd he.symm helsewhere

theorem markReady (h : s.Window q e) (k : String) : (s.markReady k).2.Window q e where
  keyed := h.keyed.markReady k
  wait := h.wait.markReady fun r hr hk => h.wait _ r hr hk
  event hne := (h.event hne).markReady fun r hr hk => h.event hne _ r hr hk

/-- What is kept under the event's key is of the order and type asked for. -/
theorem concerns (h : s.Window q e) {r : Record} (hr : s.find? e.key = some r) : r.Concerns q := by
  by_cases hk : e.key = q.key
  · exact h.wait _ r hr hk
  · exact (h.event hk _ r hr rfl).1

end Window

end RecordStore

/-- What threads do in the window and may rely on others to do: no thread takes anything back or
breaks it. Calls on the record store do not fail. -/
def Interference.window (q : Question) (e : Record) :
    Interference (Option Fault) State where
  reply := State.reply ⟨false, true⟩
  rely s t := s.events.Grows t.events ∧ (s.events.Window q e → t.events.Window q e)
  guar s t := s.events.Grows t.events ∧ (s.events.Window q e → t.events.Window q e)
  refl _ := ⟨.rfl, id⟩
  trans h h' := ⟨h.1.trans h'.1, h'.2 ∘ h.2⟩

/-- A request that brings no event and starts no wait. It keeps the window whatever it is about. -/
def Request.SparesEvents : Request → Prop
  | .events (.save _) | .events (.markPaused _) => False
  | _ => True

theorem Request.SparesRecords.sparesEvents {r : Request} (h : r.SparesRecords) :
    r.SparesEvents := by
  cases r with
  | events c =>
      cases c with
      | save | markPaused => exact h
      | _ => trivial
  | _ => trivial

theorem Proc.Asks.sparesEvents {α : Type} {p : Proc α} (h : p.Asks Request.SparesRecords) :
    p.Asks Request.SparesEvents := h.mono fun _ => Request.SparesRecords.sparesEvents

section

open Interference (window)

variable {q : Question} {e : Record}

theorem State.reply_events_safe (fault : Option Fault) (c : EventCall) (s : State) :
    (window q e).reply fault (.events c) s = (.ok (answerEvents c s).1, (answerEvents c s).2) := by
  rcases reply_events ⟨false, true⟩ fault c s with h | ⟨h, -⟩
  · exact h
  · cases h

theorem Interference.window_calm {r : Request} (hr : r.SparesEvents) (c : Option Fault)
    (s : State) : (window q e).guar s ((window q e).reply c r s).2
      ∧ (window q e).rely s ((window q e).reply c r s).2 := by
  have hs : (window q e).rely s ((window q e).reply c r s).2 := by
    refine ⟨State.grows_reply _ c r s, fun h => ?_⟩
    have hw : s.Written r ((window q e).reply c r s).2.events := State.written_reply _ c r s
    generalize ((window q e).reply c r s).2.events = t at hw ⊢
    cases hw with
    | spared => exact h
    | ready key => exact h.markReady key
    | saved | paused => exact hr.elim
  exact ⟨hs, hs⟩

/-- The rule for a call on the record store that brings no event and starts no wait. -/
theorem under_events {α : Type} {c : EventCall} (hc : Request.SparesEvents (.events c))
    {f : Except Fault c.Answer → Proc α} {post : α → State → Prop} {s : State}
    (h : ∀ t, (window q e).rely s t → Under (window q e) post
      (f (.ok (State.answerEvents c t).1)) (State.answerEvents c t).2) :
    Under (window q e) post (events c >>= f) s := by
  refine under_request fun t ht fault => ⟨(Interference.window_calm hc fault t).1, ?_⟩
  rw [State.reply_events_safe]
  exact h t ht

theorem under_after {α β : Type} {p : Proc α} {f : α → Proc β} {post : β → State → Prop}
    {s : State} (h : p.Asks Request.SparesEvents)
    (hf : ∀ a t, (window q e).rely s t → Under (window q e) post (f a) t) :
    Under (window q e) post (p >>= f) s :=
  under_bind (under_of_asks (fun _ hr => Interference.window_calm hr) h hf)

theorem under_window {α : Type} {p : Proc α} {post : α → State → Prop} {s : State}
    (h : p.Asks Request.SparesEvents) (hp : ∀ a t, (window q e).rely s t → post a t) :
    Under (window q e) post p s :=
  under_of_asks (fun _ hr => Interference.window_calm hr) h hp

end

/-! ## The verification -/

namespace Verifier

open Interference (window)

variable {q : Question} {e : Record}

/-- The verification has found its event, now or earlier, so the step goes on. -/
def passed : Except Fault Verification → Bool
  | .ok (.ready _) | .ok (.skipped _) => true
  | _ => false

theorem asks_mark (status : StepStatus) (data : Option Capture) :
    (Progress.mark q.site.scenario q.site.step status data).Asks Request.SparesEvents :=
  (Progress.asks_mark _ _ _ _).sparesRecords.sparesEvents

/-- What a verification leaves when it has not passed: a wait under the key of the step. -/
def Waits (q : Question) (s : State) : Prop :=
  ∃ r, s.events.find? q.key = some r ∧ r.paused = true

theorem Waits.rely {s t : State} (h : (window q e).rely s t) (hs : Waits q s) : Waits q t :=
  h.1.exists_paused hs

theorem under_ask (q : Question) (e : Record) (s : State) :
    Under (window q e) (fun v t => passed v = true ∨ Waits q t) (ask q) s := by
  refine under_events (by trivial) fun t _ => ?_
  cases hl : t.events.latest? q.order q.eventType with
  | some found =>
      simp only [State.answerEvents, hl]
      exact under_after (asks_mark _ _) fun _ _ _ _ _ => .inl rfl
  | none =>
      simp only [State.answerEvents, hl]
      refine under_after (asks_request trivial) fun time u _ => under_request fun v _ c => ?_
      rw [State.reply_events_safe]
      have hwaits : Waits q (State.answerEvents (.markPaused (placeholder q time)) v).2 := by
        refine ⟨_, (RecordStore.find?_markPaused _ _ _ _).trans (if_pos rfl), rfl⟩
      refine ⟨⟨v.events.grows_markPaused _ _, fun h => h.markPaused rfl ⟨rfl, rfl⟩ _⟩, ?_⟩
      exact under_after (asks_mark _ _) fun _ _ h => under_after (asks_request trivial)
        fun _ _ h' _ h'' => .inr (((hwaits.rely h).rely h').rely h'')

theorem under_verify (q : Question) (e : Record) (s : State) :
    Under (window q e) (fun v t => passed v = true ∨ Waits q t) (verify q) s := by
  refine under_after (Progress.asks_succeeded _ _).sparesRecords.sparesEvents fun passed t _ => ?_
  cases passed with
  | false => exact under_ask q e t
  | true =>
      refine under_after (asks_request trivial) fun _ u _ => ?_
      exact under_after (Progress.asks_data _ _).sparesRecords.sparesEvents
        fun _ _ _ _ _ => .inl rfl

end Verifier

/-! ## Accepted events -/

namespace Engine

open Interference (window)
open Verifier (Waits)

variable {q : Question} {e c : Record} {g : Engine} {s : State}

theorem under_resume_window (P : Prop) {current : Record}
    (hr : s.events.find? c.key = some current)
    (hP : P → c.key = q.key ∧ current.paused = true ∧ current.awaits c.eventType = true) :
    Under (window q e) (fun _ t => P → t.events.isReady q.key = true) (g.resume c current) s := by
  rcases g.resume_cases c current with ⟨entry, o, -, heq, hready⟩ | ⟨-, -, -, heq⟩
  · rw [heq]
    refine under_after (asks_request trivial) fun _ t ht _ hu hp => (ht.1.trans hu.1).isReady ?_
    obtain ⟨hk, hp, ha⟩ := hP hp
    rw [← hk, RecordStore.isReady, hr]
    exact hready hp ha
  · rw [heq]
    refine under_events (by trivial) fun t ht => ?_
    obtain ⟨r, hr', -⟩ := ht.1 _ _ hr
    refine under_window (g.asks_conclude c _).sparesEvents fun _ u hu hp => hu.1.isReady ?_
    exact (hP hp).1 ▸ RecordStore.isReady_markReady_self hr'

theorem under_settle_window (hs : s.events.Window q e) (hc : c.key = q.key → c.Concerns q) :
    Under (window q e) (fun _ t => c.key = q.key ∧ Waits q s → t.events.isReady q.key = true)
      (g.settle c) s := by
  refine under_events (by trivial) fun t ht => ?_
  have hkept : c.key = q.key ∧ Waits q s →
      ∃ r, t.events.find? c.key = some r ∧ r.paused = true := by
    rintro ⟨hk, hw⟩
    exact hk ▸ hw.rely ht
  cases hr : t.events.find? c.key with
  | none =>
      simp only [State.answerEvents, hr]
      refine under_window ⟨trivial, fun _ => trivial⟩ fun _ _ _ h => ?_
      obtain ⟨r, hr', -⟩ := hkept h
      cases hr.symm.trans hr'
  | some current =>
      simp only [State.answerEvents, hr]
      refine under_resume_window _ hr fun h => ⟨h.1, ?_, ?_⟩
      · obtain ⟨r, hr', hp⟩ := hkept h
        obtain rfl := Option.some.inj (hr.symm.trans hr')
        exact hp
      · rw [(hc h.1).2]
        exact ((ht.2 hs).wait _ current hr h.1).awaits

/-- An event that breaks no window is saved at some time, and from then on kept; if there is a
wait for `q` under its key, the wait is ready in the end. -/
theorem under_accept_window (hs : s.events.Window q e) (hkey : Text.blank c.key = false)
    (hc : c.key = q.key ∨ c.key = e.key → c.Concerns q) :
    Under (window q e) (fun _ u =>
        (∃ t : State, t.events.Window q e ∧ (window q e).rely (t.saved c) u)
          ∧ (c.key = q.key → Waits q s → u.events.isReady q.key = true)) (g.accept c) s := by
  rw [accept_eq g hkey]
  refine under_request fun t ht f => ?_
  have hwt := ht.2 hs
  have hsaved : (window q e).rely t (t.saved c) := ⟨t.events.grows_save c, fun h => h.save hc⟩
  refine ⟨(State.reply_events_safe f (.save c) t).symm ▸ hsaved, ?_⟩
  rw [State.reply_events_safe]
  refine ((under_settle_window (hsaved.2 hwt) fun h => hc (.inl h)).remember
    fun _ _ h => h).mono ?_
  rintro o u ⟨hready, hu⟩
  exact ⟨⟨t, hwt, hu⟩, fun hk hw => hready ⟨hk, (hw.rely ht).rely hsaved⟩⟩

end Engine

/-! ## Poll cycles -/

namespace Poller

open Interference (window)
open Verifier (Waits)

variable {q : Question} {e : Record} {s : State}

/-- The event has come in and is kept under its key, by itself or in a wait. -/
def Arrived (e : Record) (s : State) : Prop :=
  ∃ r, s.events.find? e.key = some r ∧ r.isObserved = true

theorem Arrived.rely {t : State} (h : (window q e).rely s t) (hs : Arrived e s) : Arrived e t := by
  obtain ⟨r, hr, ho⟩ := hs
  obtain ⟨p, hp, hgrows⟩ := h.1 _ _ hr
  exact ⟨p, hp, hgrows.observed ho⟩

/-- What is still true of a wait that was listed some time ago, in a store that others have changed
since. -/
structure Listed (q : Question) (wait : Record) (s : State) : Prop where
  paused : ∃ r, s.events.find? wait.key = some r ∧ r.paused = true
  ready : wait.ready = true → s.events.isReady wait.key = true
  concerns : wait.key = q.key → wait.Concerns q

theorem Listed.rely {wait : Record} {t : State} (h : (window q e).rely s t)
    (hs : Listed q wait s) : Listed q wait t where
  paused := h.1.exists_paused hs.paused
  ready hr := h.1.isReady (hs.ready hr)
  concerns := hs.concerns

theorem listed_of_mem {wait : Record} (hs : s.events.Window q e) (h : wait ∈ s.events.paused) :
    Listed q wait s := by
  obtain ⟨⟨key, hk⟩, hp⟩ := RecordStore.mem_paused.mp h
  obtain rfl := hs.keyed key wait hk
  refine ⟨⟨wait, hk, hp⟩, fun hr => ?_, hs.wait _ wait hk⟩
  rw [RecordStore.isReady, hk]
  exact hr

/-- Only waits for `q` are handed anything under the keys that matter, and what they are handed is
of the order and type of `q`. -/
theorem Listed.candidate {wait c : Record} (hs : s.events.Window q e) (hw : Listed q wait s)
    (hc : s.events.candidate? wait = some c) :
    c.key = wait.key ∧ (c.key = q.key ∨ c.key = e.key → c.Concerns q) := by
  obtain ⟨r, -, ho, -, rfl, ht, -⟩ := RecordStore.candidate?_some hc
  have hq : wait.key = q.key → r.order = q.order ∧ r.eventType = some q.eventType := fun h =>
    ⟨ho.trans (hw.concerns h).1, ht _ (hw.concerns h).2⟩
  refine ⟨rfl, ?_⟩
  rintro (h | h)
  · exact hq h
  · by_cases hne : e.key = q.key
    · exact hq (Eq.trans h hne)
    · obtain ⟨p, hp, hpaused⟩ := hw.paused
      have hunpaused : p.paused = false := (hs.event hne _ p hp h).2
      exact absurd (hpaused.symm.trans hunpaused) (by decide)

/-- Once the event has come in, the wait for it is handed an event, though perhaps another one of
its order and type. -/
theorem candidate_of_arrived {wait : Record} (hs : s.events.Window q e) (ha : Arrived e s)
    (hw : wait.Concerns q) : ∃ c, s.events.candidate? wait = some c := by
  obtain ⟨r, hr, ho⟩ := ha
  have hrq : r.Concerns q := hs.concerns hr
  have hobs : s.events.Observes wait.order q.eventType r :=
    ⟨⟨e.key, hr⟩, hrq.1.trans hw.1.symm, hrq.2, ho⟩
  obtain ⟨c, hc⟩ := hobs.latest?
  rw [RecordStore.candidate?, hw.2]
  exact ⟨_, congrArg _ hc⟩

theorem under_candidate (q : Question) (e wait : Record) (s : State) :
    Under (window q e) (fun found u => ∃ t : State, (window q e).rely s t ∧ (window q e).rely t u
      ∧ found = .ok (t.events.candidate? wait)) (candidate wait) s := by
  unfold candidate
  cases ht : wait.eventType with
  | some type =>
      refine under_events (by trivial) fun t hst => ?_
      refine fun u htu => ⟨t, hst, htu, ?_⟩
      rw [RecordStore.candidate?, ht]
      rfl
  | none =>
      refine under_events (by trivial) fun t hst => ?_
      refine fun u htu => ⟨t, hst, htu, ?_⟩
      rw [RecordStore.candidate?, ht]
      rfl

theorem under_delegate (p : Poller) {wait c : Record} (acc : Tally) {P : Prop}
    (hs : s.events.Window q e) (hc : c.key = q.key ∨ c.key = e.key → c.Concerns q)
    (hP : P → c.key = q.key ∧ Waits q s) :
    Under (window q e) (fun _ u => P → u.events.isReady q.key = true)
      (p.delegate wait c acc) s := by
  have haccept : Under (window q e) (fun _ u => P → u.events.isReady q.key = true)
      (p.engine.accept c) s := by
    cases hkey : Text.blank c.key with
    | true =>
        rw [Engine.accept_of_blank _ hkey]
        refine under_window ⟨trivial, fun _ => trivial⟩ fun _ _ _ h => ?_
        rw [(hP h).1, q.key_not_blank] at hkey
        cases hkey
    | false =>
        exact (Engine.under_accept_window hs hkey hc).mono
          fun _ _ h hp => h.2 (hP hp).1 (hP hp).2
  refine under_bind (haccept.mono fun o u hu => ?_)
  cases o with
  | resumeReady | lookupFailed | markFailed => exact fun v hv hp => hv.1.isReady (hu hp)
  | _ => exact under_window ⟨trivial, fun _ => trivial⟩ fun _ v hv hp => hv.1.isReady (hu hp)

/-- A visit leaves the wait for the event ready, once the event has come in. What it has listed may
be old by then, and what it decides on that is still right. -/
theorem under_visit (p : Poller) (acc : Tally) {wait : Record} (hs : s.events.Window q e)
    (hw : Listed q wait s) : Under (window q e) (fun _ u => wait.key = q.key → Arrived e s →
      u.events.isReady q.key = true) (p.visit acc wait) s := by
  unfold visit
  dsimp only
  split
  · rename_i hready
    refine under_window (asks_bind (fun _ => asks_pure _) ?_) fun _ u hu hk _ => hu.1.isReady ?_
    · exact (p.engine.asks_wake wait).sparesEvents
    · exact hk ▸ hw.ready hready
  · refine under_bind ((under_candidate q e wait s).mono ?_)
    rintro found u ⟨t, hst, htu, rfl⟩
    have hwt := hst.2 hs
    cases hc : t.events.candidate? wait with
    | some c =>
        obtain ⟨hck, hcq⟩ := (hw.rely hst).candidate hwt hc
        refine (under_delegate p _ (P := wait.key = q.key) (htu.2 hwt) hcq
          fun hk => ⟨hck.trans hk, ?_⟩).mono fun _ _ h hk _ => h hk
        have hpaused := ((hw.rely hst).rely htu).paused
        rw [hk] at hpaused
        exact hpaused
    | none =>
        intro v _ hk ha
        obtain ⟨c, hc'⟩ := candidate_of_arrived hwt (ha.rely hst) (hw.concerns hk)
        cases hc.symm.trans hc'

theorem under_visitAll (p : Poller) : ∀ (waits : List Record) (acc : Tally) {s : State},
    s.events.Window q e → (∀ wait ∈ waits, Listed q wait s) →
    Under (window q e) (fun _ u => (∃ wait ∈ waits, wait.key = q.key) → Arrived e s →
      u.events.isReady q.key = true) (p.visitAll acc waits) s
  | [], _, _, _, _ => fun _ _ h _ => by
      obtain ⟨_, hm, _⟩ := h
      cases hm
  | wait :: rest, acc, s, hs, hw => by
      have hvisit := under_visit p acc hs (hw wait List.mem_cons_self)
      refine under_bind ((hvisit.remember fun _ _ h => h).mono ?_)
      rintro acc' t ⟨hready, hst⟩
      have hrest := under_visitAll p rest acc' (hst.2 hs)
        fun w hm => (hw w (List.mem_cons_of_mem _ hm)).rely hst
      refine (hrest.remember fun _ _ h => h).mono ?_
      rintro - u ⟨hready', htu⟩ ⟨w, hm, hk⟩ ha
      rcases List.mem_cons.mp hm with rfl | hm
      · exact htu.1.isReady (hready hk ha)
      · exact hready' ⟨w, hm, hk⟩ (ha.rely hst)

/-- A poll cycle that begins when the event has come in and its wait is paused leaves the wait
ready, whatever happens during the cycle. -/
theorem under_sweep (p : Poller) (hs : s.events.Window q e) :
    Under (window q e) (fun _ u => Waits q s → Arrived e s → u.events.isReady q.key = true)
      p.sweep s := by
  refine under_events (by trivial) fun t hst => ?_
  have hwt := hst.2 hs
  refine (under_visitAll p t.events.paused .zero hwt fun wait h => listed_of_mem hwt h).mono ?_
  rintro - u hready hw ha
  obtain ⟨r, hr, hp⟩ := hw.rely hst
  exact hready ⟨r, RecordStore.mem_paused.mpr ⟨⟨_, hr⟩, hp⟩, hwt.keyed _ _ hr⟩ (ha.rely hst)

end Poller

/-! ## The encounter -/

namespace Encounter

open Interference (window)
open Verifier (passed Waits)
open Poller (Arrived)

inductive Result
  | verified (v : Except Fault Verification)
  | accepted (o : Outcome)
  | polled (acc : Tally)

/-- A verification, an event that comes in, and any number of poll cycles, as they may run at the
same time. -/
def threads (q : Question) (g : Engine) (e : Record) (ps : List Poller) : List (Proc Result) :=
  (Verifier.verify q >>= fun v => .done (.verified v))
    :: (g.accept e >>= fun o => .done (.accepted o))
    :: ps.map fun p => p.sweep >>= fun acc => .done (.polled acc)

def pool (s : State) (q : Question) (g : Engine) (e : Record) (ps : List Poller) :
    Pool (Proc Result) := ⟨s, threads q g e ps⟩

variable {q : Question} {e : Record} {s : State}

/-- What each thread leaves behind: a verification its result or a wait, and the engine the
event. -/
def Left (q : Question) (e : Record) : Nat → Result → State → Prop
  | 0, r, s => ∃ v, r = .verified v ∧ (passed v = true ∨ Waits q s)
  | 1, _, s => Arrived e s
  | _, _, _ => True

theorem arrived_saved (hs : s.events.Window q e) (he : e.Concerns q) (ho : e.isObserved = true) :
    Arrived e (s.saved e) := by
  refine ⟨_, (RecordStore.find?_save _ _ _).trans (if_pos rfl), ?_⟩
  cases hr : s.events.find? e.key with
  | none => exact ho
  | some r =>
      have ha : r.awaits e.eventType = true := by
        rw [he.2]
        exact (hs.concerns hr).awaits
      simp [Record.merge_isObserved_of_awaits ha, ho]

theorem meets_pool (g : Engine) (ps : List Poller) (hs : s.events.Window q e)
    (he : e.Concerns q) (ho : e.isObserved = true) (hkey : Text.blank e.key = false) :
    (pool s q g e ps).Meets fun i => Under (window q e) (Left q e i) := by
  intro i p hp
  match i, hp with
  | 0, hp =>
      obtain rfl := Option.some.inj hp
      refine under_bind ((Verifier.under_verify q e s).mono fun v t h u hu => ⟨v, rfl, ?_⟩)
      exact h.imp_right (Waits.rely hu)
  | 1, hp =>
      obtain rfl := Option.some.inj hp
      refine under_bind ((Engine.under_accept_window hs hkey fun _ => he).mono ?_)
      rintro o u ⟨⟨t, ht, hu⟩, -⟩ v hv
      exact ((arrived_saved ht he ho).rely hu).rely hv
  | i + 2, hp =>
      obtain ⟨p, -, rfl⟩ := List.mem_map.mp (List.mem_of_getElem? (List.getElem?_cons_succ ▸ hp))
      exact under_bind ((Poller.under_sweep p hs).mono fun _ _ _ _ _ => trivial)

end Encounter

/-- **No event is lost between the look-up and the pause.** A verification of `q`, the acceptance of
an event of its order and type and any poll cycles mingle in any order, in a store that keeps
nothing under the key of the wait nor of the event. When they are done, either the verification has
passed or one more poll cycle leaves its wait ready. -/
theorem event_not_lost {s : State} {ws : List RecordStore.Write} (hs : s.events = .ofWrites ws)
    {q : Question} {e : Record} (he : e.order = q.order ∧ e.eventType = some q.eventType)
    (ho : e.isObserved = true) (hkey : Text.blank e.key = false)
    (hnowait : s.events.find? q.key = none) (hnew : s.events.find? e.key = none)
    (g : Engine) (ps : List Poller) (schedule : List Choice)
    (hdone : ((Encounter.pool s q g e ps).run (advance ⟨false, true⟩) schedule).threads.all isDone
      = true) (p : Poller) :
    let w := (Encounter.pool s q g e ps).run (advance ⟨false, true⟩) schedule
    (∃ v, w.threads[0]? = some (.done (.verified v)) ∧ Verifier.passed v = true)
      ∨ (run State.answer p.sweep w.state).2.events.isReady q.key = true := by
  intro w
  have hwindow : s.events.Window q e := .opened (hs ▸ RecordStore.keyed_ofWrites ws) hnowait hnew
  obtain ⟨hrely, hmeets⟩ := stays_under (I := Interference.window q e) (x := ⟨false, true⟩) rfl
    (fun _ _ h => h) (fun _ _ => ⟨.rfl, id⟩) (Encounter.meets_pool g ps hwindow he ho hkey) schedule
  have hlen : w.threads.length = ps.length + 2 := by
    rw [Pool.length_run]
    simp [Encounter.pool, Encounter.threads]
  have hended : ∀ i, i < ps.length + 2 →
      ∃ r, w.threads[i]? = some (.done r) ∧ Encounter.Left q e i r w.state := by
    intro i hi
    rw [← hlen] at hi
    have hthread := List.all_eq_true.mp hdone _ (List.getElem_mem hi)
    replace hi := List.getElem?_eq_getElem hi
    cases hp : w.threads[i] with
    | done r =>
        rw [hp] at hi
        exact ⟨r, hi, (hmeets i _ hi).ends⟩
    | ask =>
        rw [hp] at hthread
        cases hthread
  obtain ⟨_, hverified, v, rfl, hpassed | hwaits⟩ := hended 0 (by omega)
  · exact .inl ⟨v, hverified, hpassed⟩
  · obtain ⟨_, -, harrived⟩ := hended 1 (by omega)
    exact .inr ((Poller.under_sweep p (hrely.2 hwindow)).run rfl hwaits harrived)

namespace Encounter

def shipped : Question :=
  ⟨⟨⟨"Ship order", "1", none⟩, "orders.feature", "12", "shipped"⟩, "ORD1", "SHIPPED"⟩

/-- A poller lists the waits, the step looks the shipment up, it comes in, and the step pauses: none
of them has seen the others in time. -/
def late : Pool (Proc Result) :=
  (pool (State.initial fun _ => ⟨0, 1, fun _ => 0⟩) shipped ⟨none⟩
    (.observed "ORD1" "SHIPPED" .null default) [⟨"x", ⟨none⟩, 0⟩]).run (advance ⟨false, true⟩) <|
    .step 2 none :: (List.replicate 2 (.step 0 none) ++ List.replicate 3 (.step 1 none)
      ++ List.replicate 7 (.step 0 none))

def turnedAway : Proc Result → Bool
  | .done (.verified v) => !Verifier.passed v
  | _ => false

theorem late_resumed : late.threads[0]?.any turnedAway = true
    ∧ (run State.answer (Poller.sweep ⟨"x", ⟨none⟩, 0⟩) late.state).2.events.isReady shipped.key
      = true := by
  have haway : late.threads[0]?.any turnedAway = true := by decide +kernel
  have hempty : (State.initial fun _ => ⟨0, 1, fun _ => 0⟩).events = .ofWrites [] := rfl
  have hdone : late.threads.all isDone = true := by decide +kernel
  have hlost := event_not_lost hempty (q := shipped) (e := .observed "ORD1" "SHIPPED" .null default)
    ⟨rfl, rfl⟩ rfl (by decide) rfl rfl ⟨none⟩ [⟨"x", ⟨none⟩, 0⟩] _ hdone ⟨"x", ⟨none⟩, 0⟩
  refine ⟨haway, hlost.resolve_left ?_⟩
  rintro ⟨v, hv, hpassed⟩
  rw [late, hv] at haway
  simp [turnedAway, hpassed] at haway

end Encounter

end Rendezvous
