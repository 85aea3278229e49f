import Rendezvous.Proofs.Receivers
import Rendezvous.Proofs.Window

/-!
# Receivers are not resolved for nothing

A receiver that waits for the key of a question should be resolved only when the event is there for
the question to find. What is kept under the key is the wait (`RecordStore.Attended`): the wait is
made ready, and its key completed, only by whoever knows that it has taken its event in
(`Request.Earned`). An engine knows that from what it finds after saving the event, a poller from
the wait being ready.

All this rests on how the key is used by others: an event is saved under it only when the wait is
there, with a time, and every pause is for the order and type of the question (`Request.Orderly`).
That is a property of a run and not of a procedure, so procedures are looked at as long as the run
is orderly, and a state is lost from sight at the first request that is not
(`Interference.attending`).
-/

namespace Rendezvous

open Proc

namespace RecordStore

/-- An event is kept under `key`, by itself or in the wait that has taken it in. -/
def HasSeen (s : RecordStore) (key : String) : Prop :=
  ∃ r, s.find? key = some r ∧ r.isObserved = true

theorem HasSeen.grows {s t : RecordStore} {key : String} (h : s.HasSeen key) (hst : s.Grows t) :
    t.HasSeen key := by
  obtain ⟨r, hr, ho⟩ := h
  obtain ⟨p, hp, hrp⟩ := hst key r hr
  exact ⟨p, hp, hrp.observed ho⟩

/-- What is kept under the key of `q` is a wait for `q`, and it is ready only with its event. A wait
that is ready without one would be of no use to those who verify again. -/
structure Attended (q : Question) (s : RecordStore) : Prop where
  keyed : s.Keyed
  wait : s.All fun key r => key = q.key →
    r.Concerns q ∧ r.paused = true ∧ (r.ready = true → r.isObserved = true)

variable {q : Question} {s : RecordStore}

theorem attended_empty (q : Question) : empty.Attended q := ⟨keyed_empty, all_empty _⟩

/-- A wait that has an order keeps it, and its type. -/
theorem Attended.save (h : s.Attended q) (hq : q.order ≠ "") {e : Record}
    (he : e.key = q.key → ∃ r, s.find? q.key = some r) : (s.save e).Attended q where
  keyed := h.keyed.save e
  wait key r hr hk := by
    rw [find?_save] at hr
    split at hr
    · obtain ⟨p, hp⟩ := he ((Eq.symm ‹_›).trans hk)
      obtain ⟨⟨ho, ht⟩, hpaused, hready⟩ := h.wait _ p hp rfl
      rw [hk, hp] at hr
      obtain rfl := Option.some.inj hr
      refine ⟨⟨?_, ?_⟩, (p.merge_paused e).trans hpaused, fun hr => ?_⟩
      · rcases Record.merge_order_of_paused e hpaused with heq | ⟨hempty, -⟩
        · exact heq.trans ho
        · exact absurd (ho.symm.trans hempty) hq
      · exact (Record.merge_eventType_of_paused e hpaused).trans ht
      · rw [Record.merge_ready] at hr
        exact (p.grows_merge e).observed (hready hr)
    · exact h.wait key r hr hk

theorem Attended.markPaused (h : s.Attended q) {context : Record}
    (hc : context.key = q.key → context.Concerns q) (now : Instant) :
    (s.markPaused context now).Attended q where
  keyed := h.keyed.markPaused context now
  wait := h.wait.markPaused
    (fun hk => ⟨Record.Concerns.pause (r := context.fresh) (hc hk) (hc hk) now, rfl,
      fun hr => by cases hr⟩)
    fun r hr hk =>
      have ⟨hrq, _, hready⟩ := h.wait _ r hr hk
      ⟨hrq.pause (hc hk) now, rfl, hready⟩

theorem Attended.markReady (h : s.Attended q) {k : String}
    (hk : k = q.key → s.HasSeen q.key) : (s.markReady k).2.Attended q where
  keyed := h.keyed.markReady k
  wait := h.wait.markReady fun r hr hkey => by
    obtain ⟨hrq, hp, -⟩ := h.wait k r hr hkey
    obtain ⟨p, hp', ho⟩ := hk hkey
    rw [← hkey, hr] at hp'
    obtain rfl := Option.some.inj hp'
    exact ⟨hrq, hp, fun _ => ho⟩

/-- The wait takes in an event of its type. -/
theorem Attended.hasSeen_save (h : s.Attended q) {e : Record} (hk : e.key = q.key)
    (he : ∃ r, s.find? q.key = some r) (ho : e.isObserved = true)
    (ht : e.eventType = some q.eventType) : (s.save e).HasSeen q.key := by
  obtain ⟨r, hr⟩ := he
  have ha : r.awaits e.eventType = true := by
    rw [ht]
    exact (h.wait _ r hr rfl).1.awaits
  refine ⟨r.merge e, ?_, ?_⟩
  · rw [find?_save, if_pos hk.symm, hr]
  · rw [Record.merge_isObserved_of_awaits ha, ho]
    rfl

/-- Once the event is there, a look-up for it finds one. -/
theorem Attended.latest? (h : s.Attended q) (hs : s.HasSeen q.key) :
    ∃ e, s.latest? q.order q.eventType = some e := by
  obtain ⟨r, hr, ho⟩ := hs
  obtain ⟨⟨hro, hrt⟩, -⟩ := h.wait _ r hr rfl
  exact Observes.latest? ⟨⟨q.key, hr⟩, hro, hrt, ho⟩

end RecordStore

/-! ## Requests -/

namespace Request

/-- An event is saved only with a time, and under the key of `q` only when the wait is there; the
wait is only paused for what `q` asks for. -/
def Orderly (q : Question) (s : RecordStore) : Request → Prop
  | .events (.save e) => e.isObserved = true ∧ (e.key = q.key → ∃ r, s.find? q.key = some r)
  | .events (.markPaused context) => context.key = q.key → context.Concerns q
  | _ => True

instance decidableOrderly (q : Question) (s : RecordStore) : ∀ r : Request,
    Decidable (r.Orderly q s)
  | .events (.save e) =>
      have : Decidable (∃ r, s.find? q.key = some r) :=
        decidable_of_iff _ Option.isSome_iff_exists
      inferInstanceAs
        (Decidable (e.isObserved = true ∧ (e.key = q.key → ∃ r, s.find? q.key = some r)))
  | .events (.markPaused context) => inferInstanceAs (Decidable
      (context.key = q.key → context.order = q.order ∧ context.eventType = some q.eventType))
  | .events (.latest _ _) | .events (.find _) | .events (.markReady _) | .events (.isReady _)
  | .events (.byOrder _) | .events .paused | .scenarios _ | .register _ _ | .complete _ _ _
  | .waiting _ _ | .now | .note _ => isTrue trivial

/-- What a procedure may do for the wait of `q`: it is made ready, and its key completed, only when
the event is there. -/
def Earned (q : Question) (s : RecordStore) : Request → Prop
  | .events (.markReady key) | .complete _ key _ => key = q.key → s.HasSeen q.key
  | _ => True

end Request

namespace State

/-- The wait for `q` is attended to: what is kept of it is sound, and nothing is held in a mailbox
for its key before the event is there. -/
structure Attends (q : Question) (s : State) : Prop where
  events : s.events.Attended q
  tracks : ∀ id, ∃ keys, (s.mailboxes id).Tracks keys
  held : ∀ id h, (s.mailboxes id).held.get? q.key = some h → s.events.HasSeen q.key

/-- The receiver waits for the key of `q`, or it is resolved and the event is there. In both cases
its owner will not be let down. -/
def Serves (q : Question) (id : MailboxId) (receiver : Nat) (s : State) : Prop :=
  receiver ∈ (s.mailboxes id).live q.key
    ∨ (∃ r, (s.mailboxes id).receivers[receiver]? = some (.resolved r)) ∧ s.events.HasSeen q.key

variable {q : Question} {s : State}

theorem attends_initial (q : Question) (retention : MailboxId → Retention) :
    (initial retention).Attends q where
  events := RecordStore.attended_empty q
  tracks _ := ⟨[], Mailbox.tracks_empty⟩
  held _ _ h := by cases h

theorem setMailbox_self (s : State) (id : MailboxId) (a : Mailbox) :
    (s.setMailbox id a).mailboxes id = a := if_pos rfl

theorem setMailbox_ne (s : State) {i id : MailboxId} (a : Mailbox) (h : i ≠ id) :
    (s.setMailbox id a).mailboxes i = s.mailboxes i := if_neg h

/-- One mailbox changes, and holds nothing new for the key. -/
theorem Attends.setMailbox (h : s.Attends q) {id : MailboxId} {a : Mailbox}
    (ht : ∃ keys, a.Tracks keys)
    (hh : ∀ hd, a.held.get? q.key = some hd → s.events.HasSeen q.key) :
    (s.setMailbox id a).Attends q where
  events := h.events
  tracks i := by
    by_cases hi : i = id
    · rw [hi, setMailbox_self]
      exact ht
    · rw [setMailbox_ne s a hi]
      exact h.tracks i
  held i hd hheld := by
    by_cases hi : i = id
    · rw [hi, setMailbox_self] at hheld
      exact hh hd hheld
    · rw [setMailbox_ne s a hi] at hheld
      exact h.held i hd hheld

theorem Attends.register (h : s.Attends q) (id : MailboxId) (key : String) :
    (s.register id key).2.Attends q := by
  refine Attends.setMailbox (a := ((s.mailboxes id).register (s.retention id) s.clock key).2) h ?_
    fun hd hheld => ?_
  · obtain ⟨keys, ht⟩ := h.tracks id
    exact ⟨_, ht.register _ _ key⟩
  · rw [Mailbox.get?_held_register] at hheld
    split at hheld
    · cases hheld
    · exact h.held id hd (Option.filter_eq_some_iff.mp hheld).1

theorem Attends.complete (h : s.Attends q) {id : MailboxId} {key : String} {result : Record}
    (hk : key = q.key → s.events.HasSeen q.key) : (s.complete id key result).2.Attends q := by
  refine Attends.setMailbox h
    (a := ((s.mailboxes id).complete (s.retention id) s.clock key result).2) ?_ fun hd hheld => ?_
  · obtain ⟨keys, ht⟩ := h.tracks id
    exact ⟨_, ht.complete _ _ key result⟩
  · by_cases hl : (s.mailboxes id).live key = []
    · rw [Mailbox.get?_held_complete hl] at hheld
      split at hheld
      · exact hk (Eq.symm ‹_›)
      · split at hheld
        · cases hheld
        · exact h.held id hd (Option.filter_eq_some_iff.mp hheld).1
    · rw [Mailbox.held_complete fun h0 => hl (List.length_eq_zero_iff.mp h0)] at hheld
      exact h.held id hd hheld

theorem Attends.drop (h : s.Attends q) (id : MailboxId) (receiver : Nat) :
    (s.setMailbox id ((s.mailboxes id).drop receiver)).Attends q := by
  refine h.setMailbox ?_ fun hd hheld => h.held id hd hheld
  obtain ⟨keys, ht⟩ := h.tracks id
  exact ⟨keys, ht.drop receiver⟩

/-- Nobody disturbs who attends to the wait but by a disorderly request or an unearned one. There is
one case for each kind of request, and this is the only place where they are gone through. -/
theorem Attends.answer (h : s.Attends q) (hq : q.order ≠ "") {r : Request}
    (ho : r.Orderly q s.events) (he : r.Earned q s.events) : (answer r s).2.Attends q := by
  have hevents : ∀ {t : RecordStore}, s.events.Grows t → t.Attended q →
      Attends q { s with events := t } := fun hg ht =>
    ⟨ht, h.tracks, fun id hd hh => (h.held id hd hh).grows hg⟩
  cases r with
  | events c =>
      cases c with
      | save e => exact hevents (s.events.grows_save e) (h.events.save hq ho.2)
      | markPaused context =>
          exact hevents (s.events.grows_markPaused context _) (h.events.markPaused ho _)
      | markReady key => exact hevents (s.events.grows_markReady key) (h.events.markReady he)
      | _ => exact h
  | scenarios c => cases c <;> exact ⟨h.events, h.tracks, h.held⟩
  | register id key => exact h.register id key
  | complete id key result => exact h.complete he
  | _ => exact h

variable {id i : MailboxId} {receiver : Nat}

/-- A receiver is served on if it is in the mailbox that changes. -/
theorem Serves.setMailbox (h : s.Serves q id receiver) {a : Mailbox}
    (ha : i = id → receiver ∈ a.live q.key
      ∨ (∃ r, a.receivers[receiver]? = some (.resolved r)) ∧ s.events.HasSeen q.key) :
    (s.setMailbox i a).Serves q id receiver := by
  unfold Serves
  by_cases hi : id = i
  · subst hi
    rw [setMailbox_self]
    exact ha rfl
  · rw [setMailbox_ne s a hi]
    exact h

theorem Serves.register (h : s.Serves q id receiver) (hs : s.Attends q) (i : MailboxId)
    (key : String) : (s.register i key).2.Serves q id receiver := by
  refine Serves.setMailbox (a := ((s.mailboxes i).register (s.retention i) s.clock key).2) h ?_
  rintro rfl
  rcases h with hl | ⟨⟨r, hr⟩, hseen⟩
  · obtain ⟨keys, ht⟩ := hs.tracks i
    exact .inl (ht.mem_live_register hl)
  · refine .inr ⟨⟨r, ?_⟩, hseen⟩
    rw [Mailbox.receivers_register,
      List.getElem?_append_left (List.getElem?_eq_some_iff.mp hr).1]
    exact hr

theorem Serves.complete (h : s.Serves q id receiver) (hs : s.Attends q) {key : String}
    {result : Record} (hk : key = q.key → s.events.HasSeen q.key) :
    (s.complete i key result).2.Serves q id receiver := by
  refine Serves.setMailbox (a := ((s.mailboxes i).complete (s.retention i) s.clock key result).2)
    h ?_
  rintro rfl
  rw [Mailbox.getElem?_complete]
  rcases h with hl | ⟨⟨r, hr⟩, hseen⟩
  · by_cases hkey : key = q.key
    · subst hkey
      exact .inr ⟨⟨result, if_pos hl⟩, hk rfl⟩
    · obtain ⟨keys, ht⟩ := hs.tracks i
      rw [ht.live_complete (Ne.symm hkey)]
      exact .inl hl
  · refine .inr ⟨?_, hseen⟩
    split
    · exact ⟨result, rfl⟩
    · exact ⟨r, hr⟩

/-- A receiver is taken away from nobody but its owner. -/
theorem Serves.drop (h : s.Serves q id receiver) {j : Nat} (hne : (i, j) ≠ (id, receiver)) :
    (s.setMailbox i ((s.mailboxes i).drop j)).Serves q id receiver := by
  refine h.setMailbox ?_
  rintro rfl
  have hj : receiver ≠ j := fun heq => hne (by rw [heq])
  rcases h with hl | ⟨⟨r, hr⟩, hseen⟩
  · exact .inl (Mailbox.mem_live_drop hl hj)
  · refine .inr ⟨⟨r, ?_⟩, hseen⟩
    rw [Mailbox.drop, List.getElem?_set_ne hj.symm]
    exact hr

theorem Serves.answer (h : s.Serves q id receiver) (hs : s.Attends q) {r : Request}
    (he : r.Earned q s.events) : (answer r s).2.Serves q id receiver := by
  have hevents : ∀ {t : RecordStore}, s.events.Grows t →
      Serves q id receiver { s with events := t } := fun hg =>
    h.imp_right fun ⟨hr, hseen⟩ => ⟨hr, hseen.grows hg⟩
  cases r with
  | events c =>
      cases c with
      | save e => exact hevents (s.events.grows_save e)
      | markPaused context => exact hevents (s.events.grows_markPaused context _)
      | markReady key => exact hevents (s.events.grows_markReady key)
      | _ => exact h
  | scenarios c => cases c <;> exact h
  | register i key => exact h.register hs i key
  | complete i key result => exact h.complete hs he
  | _ => exact h

end State

theorem State.grows_answer (r : Request) (s : State) : s.events.Grows (answer r s).2.events := by
  have h := grows_reply .none none r s
  rwa [reply_nofault] at h

/-! ## As long as the run is orderly -/

/-- What others make of a state: nothing is taken back, and the wait for `q` is attended to if it
was. -/
def State.Yields (q : Question) (s t : State) : Prop :=
  s.events.Grows t.events ∧ (s.Attends q → t.Attends q)

/-- What procedures do to a wait and may rely on others to do. Calls do not fail, and there is a
state only as long as all requests were orderly, so that nothing is asked of those who come after
one that was not. -/
def Interference.attending (q : Question) : Interference Unit (Option State) where
  reply _ r
    | some s => ((State.answer r s).1,
        if r.Orderly q s.events then some (State.answer r s).2 else none)
    | none => ((State.answer r (.initial fun _ => ⟨0, 0, fun _ => 0⟩)).1, none)
  rely s t := ∀ b, t = some b → ∃ a, s = some a ∧ a.Yields q b
  guar s t := ∀ b, t = some b → ∃ a, s = some a ∧ a.Yields q b
    ∧ ∀ id receiver, a.Attends q → a.Serves q id receiver → b.Serves q id receiver
  refl _ b hb := ⟨b, hb, .rfl, id⟩
  trans h h' b hb :=
    have ⟨_, hm, hmb⟩ := h' b hb
    have ⟨a, ha, ham⟩ := h _ hm
    ⟨a, ha, ham.1.trans hmb.1, hmb.2 ∘ ham.2⟩

namespace Proc

variable {α β : Type}

/-- As long as the run is orderly, the procedure earns what it does for `q`, and in the end `post`
holds. -/
def Attending (q : Question) (post : α → State → Prop) (p : Proc α) (s : State) : Prop :=
  Under (Interference.attending q) (fun a t => ∀ u, t = some u → post a u) p (some s)

variable {q : Question} {post : α → State → Prop} {s t : State}

theorem attending_lost : ∀ p : Proc α,
    Under (Interference.attending q) (fun a t => ∀ u, t = some u → post a u) p none
  | .done a => fun t h u hu => by
      obtain ⟨_, h, -⟩ := h u hu
      cases h
  | .ask r next => fun t h c => by
      cases t with
      | some u =>
          obtain ⟨_, h, -⟩ := h u rfl
          cases h
      | none => exact ⟨fun _ hb => (nomatch hb), attending_lost _⟩

theorem Attending.rely {p : Proc α} (h : p.Attending q post s) (hst : s.Yields q t) :
    p.Attending q post t :=
  Under.rely h fun _ hb => ⟨s, rfl, Option.some.inj hb ▸ hst⟩

theorem Attending.ends {a : α} (h : (Proc.done a).Attending q post s) : post a s :=
  Under.ends h s rfl

theorem Attending.mono {post' : α → State → Prop} (hp : ∀ a t, post a t → post' a t) {p : Proc α}
    (h : p.Attending q post s) : p.Attending q post' s :=
  Under.mono (fun a _ h u hu => hp a u (h u hu)) h

theorem Attending.remember {p : Proc α} (h : p.Attending q post s) :
    p.Attending q (fun a t => post a t ∧ s.Yields q t) s := by
  have hrely : ∀ a b, (Interference.attending q).guar a b →
      (Interference.attending q).rely a b := by
    intro a b hg c hc
    obtain ⟨d, hd, hy, -⟩ := hg c hc
    exact ⟨d, hd, hy⟩
  refine Under.mono ?_ (Under.remember hrely h)
  rintro a t ⟨hp, hst⟩ u hu
  obtain ⟨_, hs, hst⟩ := hst u hu
  cases hs
  exact ⟨hp u hu, hst⟩

theorem attending_done {a : α} (h : ∀ t, s.Yields q t → post a t) :
    (Proc.done a).Attending q post s := by
  intro t ht u hu
  obtain ⟨_, hs, hst⟩ := ht u hu
  cases hs
  exact h u hst

theorem attending_bind {post : β → State → Prop} {p : Proc α} {f : α → Proc β}
    (h : p.Attending q (fun a t => (f a).Attending q post t) s) :
    (p >>= f).Attending q post s := by
  refine under_bind (Under.mono (fun a t h => ?_) h)
  cases t with
  | some u => exact h u rfl
  | none => exact attending_lost _

/-- What an orderly request of the procedure does: it earns what it does for the wait, and the
procedure goes on as it should. -/
theorem Attending.ask {r : Request} {next : r.Answer → Proc α}
    (h : (Proc.ask r next).Attending q post s) (ho : r.Orderly q s.events) :
    (s.Yields q (State.answer r s).2 ∧ ∀ id receiver, s.Attends q → s.Serves q id receiver →
        (State.answer r s).2.Serves q id receiver)
      ∧ (next (State.answer r s).1).Attending q post (State.answer r s).2 := by
  obtain ⟨hg, hn⟩ := Under.ask h ()
  have hreply : (Interference.attending q).reply () r (some s)
      = ((State.answer r s).1, some (State.answer r s).2) :=
    congrArg (Prod.mk _) (if_pos ho)
  rw [hreply] at hg hn
  obtain ⟨_, hs, hy, hserves⟩ := hg _ rfl
  cases hs
  exact ⟨⟨hy, hserves⟩, hn⟩

/-- The rule for a request that is earned whenever it is orderly. -/
theorem attending_ask (hq : q.order ≠ "") {r : Request} {next : r.Answer → Proc α}
    (h : ∀ t, s.Yields q t → r.Orderly q t.events → (t.Attends q → r.Earned q t.events)
      ∧ (t.Yields q (State.answer r t).2 →
        (next (State.answer r t).1).Attending q post (State.answer r t).2)) :
    (Proc.ask r next).Attending q post s := by
  rintro (_ | t) ht c
  · exact ⟨fun _ hb => (nomatch hb), attending_lost _⟩
  · obtain ⟨_, hs, hst⟩ := ht t rfl
    cases hs
    by_cases ho : r.Orderly q t.events
    · obtain ⟨he, hn⟩ := h t hst ho
      have hy : t.Yields q (State.answer r t).2 :=
        ⟨State.grows_answer r t, fun hA => hA.answer hq ho (he hA)⟩
      have hreply : (Interference.attending q).reply c r (some t)
          = ((State.answer r t).1, some (State.answer r t).2) :=
        congrArg (Prod.mk _) (if_pos ho)
      rw [hreply]
      refine ⟨fun b hb => ?_, hn hy⟩
      obtain rfl := Option.some.inj hb
      exact ⟨t, rfl, hy, fun _ _ hA hserves => hserves.answer hA (he hA)⟩
    · have hreply : (Interference.attending q).reply c r (some t)
          = ((State.answer r t).1, none) := congrArg (Prod.mk _) (if_neg ho)
      rw [hreply]
      exact ⟨fun _ hb => (nomatch hb), attending_lost _⟩

/-- The rule for a request that something follows. -/
theorem attending_request (hq : q.order ≠ "") {r : Request} {f : r.Answer → Proc α}
    (h : ∀ t, s.Yields q t → r.Orderly q t.events → (t.Attends q → r.Earned q t.events)
      ∧ (t.Yields q (State.answer r t).2 →
        (f (State.answer r t).1).Attending q post (State.answer r t).2)) :
    (request r >>= f).Attending q post s := attending_ask hq h

end Proc

theorem State.Yields.trans {q : Question} {s t u : State} (h : s.Yields q t) (h' : t.Yields q u) :
    s.Yields q u := ⟨h.1.trans h'.1, h'.2 ∘ h.2⟩

theorem State.Yields.hasSeen {q : Question} {s t : State} (h : s.Yields q t)
    (hs : s.events.HasSeen q.key) : t.events.HasSeen q.key := hs.grows h.1

/-- A request that touches no record, and completes the key of `q` only if `P`. This is what most
requests of the components are. -/
def Request.Calm (q : Question) (P : Prop) : Request → Prop
  | .events (.save _) | .events (.markPaused _) | .events (.markReady _) => False
  | .complete _ key _ => key = q.key → P
  | _ => True

section

variable {α β : Type} {q : Question} {P : Prop} {s : State}

theorem Request.Idle.calm {r : Request} (h : r.Idle) : r.Calm q P := by
  cases r with
  | events c =>
      cases c with
      | save | markPaused | markReady => exact h
      | _ => trivial
  | complete => exact h.elim
  | _ => trivial

theorem Request.Calm.orderly {r : Request} (h : r.Calm q P) (s : RecordStore) : r.Orderly q s := by
  cases r with
  | events c =>
      cases c with
      | save | markPaused => exact h.elim
      | _ => trivial
  | _ => trivial

theorem Request.Calm.earned {r : Request} (h : r.Calm q P) {s : RecordStore}
    (hP : P → s.HasSeen q.key) : r.Earned q s := by
  cases r with
  | events c =>
      cases c with
      | markReady => exact h.elim
      | _ => trivial
  | complete _ key _ => exact fun hk => hP (h hk)
  | _ => trivial

variable (hq : q.order ≠ "")

include hq

namespace Proc

/-- A procedure of calm requests needs no further argument, whatever it is for. -/
theorem attending_of_asks {post : α → State → Prop} : ∀ {p : Proc α} {s : State},
    p.Asks (Request.Calm q P) → (P → s.events.HasSeen q.key) →
    (∀ a t, s.Yields q t → post a t) → p.Attending q post s
  | .done a, _, _, _, h => attending_done (h a)
  | .ask _ _, _, ⟨hr, hn⟩, hP, h => attending_ask hq fun _ hst _ =>
      ⟨fun _ => hr.earned fun hp => hst.hasSeen (hP hp), fun hy =>
        attending_of_asks (hn _) (fun hp => (hst.trans hy).hasSeen (hP hp))
          fun a u hu => h a u ((hst.trans hy).trans hu)⟩

/-- The rule for a request that changes nothing for the wait. -/
theorem attending_query {post : α → State → Prop} {r : Request} {f : r.Answer → Proc α}
    (hr : r.Idle) (h : ∀ t, s.Yields q t → t.Yields q (State.answer r t).2 →
      (f (State.answer r t).1).Attending q post (State.answer r t).2) :
    (request r >>= f).Attending q post s := by
  refine attending_request hq fun t hst _ => ⟨fun _ => ?_, h t hst⟩
  have hcalm : r.Calm q False := hr.calm
  exact hcalm.earned False.elim

theorem attending_note {post : α → State → Prop} (entry : LogEntry) {a : α}
    (h : ∀ t, s.Yields q t → post a t) :
    (note entry >>= fun _ => .done a).Attending q post s :=
  attending_query hq trivial fun _ hst hy =>
    attending_done fun u hu => h u ((hst.trans hy).trans hu)

theorem attending_idle {p : Proc α} (h : p.Asks Request.Idle) :
    p.Attending q (fun _ t => s.Yields q t) s :=
  attending_of_asks hq (P := False) (h.mono fun _ => Request.Idle.calm) False.elim
    fun _ _ hst => hst

/-- A procedure of idle requests that something follows. -/
theorem attending_after {post : β → State → Prop} {p : Proc α} {f : α → Proc β}
    (h : p.Asks Request.Idle) (hf : ∀ a t, s.Yields q t → (f a).Attending q post t) :
    (p >>= f).Attending q post s :=
  attending_bind ((attending_idle hq h).mono hf)

end Proc

/-! ## Engines -/

namespace Engine

variable {g : Engine} {e : Record}

/-- The wait is made ready for an event of its type, and that it has taken in before: the engine
saves what it accepts, and the wait does not change its type under it. -/
theorem attending_resume {current : Record} (hc : e.key = q.key → current.Concerns q)
    (he : e.key = q.key → e.eventType = some q.eventType → s.events.HasSeen q.key) :
    (g.resume e current).Attending q (fun _ _ => True) s := by
  rcases g.resume_cases e current with ⟨entry, o, -, heq, -⟩ | ⟨-, ha, -, heq⟩
  · rw [heq]
    exact attending_note hq entry fun _ _ => trivial
  · have hseen : e.key = q.key → s.events.HasSeen q.key := by
      intro hk
      refine he hk ?_
      simpa [Record.awaits, (hc hk).2] using ha
    rw [heq]
    refine attending_ask hq fun t hst _ => ⟨fun _ hk => hst.hasSeen (hseen hk), fun hy => ?_⟩
    refine attending_of_asks hq (P := e.key = q.key) ?_
      (fun hk => (hst.trans hy).hasSeen (hseen hk)) fun _ _ _ => trivial
    exact asks_conclude_of (fun _ => trivial) (fun _ hk => hk) _

theorem attending_settle (hs : s.Attends q)
    (he : e.key = q.key → e.eventType = some q.eventType → s.events.HasSeen q.key) :
    (g.settle e).Attending q (fun _ _ => True) s := by
  refine attending_query hq trivial fun t hst _ => ?_
  cases hr : t.events.find? e.key with
  | none =>
      simp only [State.answer, State.answerEvents, hr]
      exact attending_note hq _ fun _ _ => trivial
  | some current =>
      simp only [State.answer, State.answerEvents, hr]
      refine attending_resume hq (fun hk => ?_) fun hk ht => hst.hasSeen (he hk ht)
      exact ((hst.2 hs).events.wait _ current hr hk).1

/-- An engine saves what it accepts, before it looks whether that ends the wait. By then the event
is there to be found. -/
theorem attending_accept (hs : s.Attends q) (g : Engine) (e : Record) :
    (g.accept e).Attending q (fun _ _ => True) s := by
  cases hkey : Text.blank e.key with
  | true =>
      rw [accept_of_blank g hkey]
      exact attending_note hq _ fun _ _ => trivial
  | false =>
      rw [accept_eq g hkey]
      refine attending_ask hq fun t hst ho => ⟨fun _ => trivial, fun hy => ?_⟩
      refine attending_settle hq ((hst.trans hy).2 hs) fun hk ht => ?_
      exact (hst.2 hs).events.hasSeen_save hk (ho.2 hk) ho.1 ht

/-- A ready record is handed on by whoever knows that the event is there, and a record that is ready
says so. -/
theorem attending_wake {r : Record} (g : Engine)
    (hr : r.ready = true → r.key = q.key → s.events.HasSeen q.key) :
    (g.wake r).Attending q (fun _ t => s.Yields q t) s := by
  refine attending_of_asks hq (P := r.ready = true ∧ r.key = q.key) ?_ (fun h => hr h.1 h.2)
    fun _ _ h => h
  exact asks_wake_of (fun _ => Request.Idle.calm) g fun hready _ hk => ⟨hready, hk⟩

end Engine

/-! ## Poll cycles -/

namespace Poller

theorem attending_delegate (hs : s.Attends q) (p : Poller) (wait e : Record) (acc : Tally) :
    (p.delegate wait e acc).Attending q (fun _ _ => True) s := by
  refine attending_bind ((Engine.attending_accept hq hs p.engine e).mono fun o t _ => ?_)
  cases o with
  | resumeReady | lookupFailed | markFailed => exact attending_done fun _ _ => trivial
  | _ => exact attending_note hq _ fun _ _ => trivial

theorem attending_visit (hs : s.Attends q) (p : Poller) (acc : Tally) {wait : Record}
    (hw : wait.ready = true → wait.key = q.key → s.events.HasSeen q.key) :
    (p.visit acc wait).Attending q (fun _ _ => True) s := by
  unfold visit
  dsimp only
  split
  · exact attending_bind ((Engine.attending_wake hq p.engine hw).mono fun _ _ _ =>
      attending_done fun _ _ => trivial)
  · refine attending_after hq (asks_candidate wait) fun found t hst => ?_
    match found with
    | .ok (some e) => exact attending_delegate hq (hst.2 hs) p wait e _
    | .ok none => exact attending_done fun _ _ => trivial
    | .error f => exact attending_note hq _ fun _ _ => trivial

theorem attending_visitAll (p : Poller) : ∀ (waits : List Record) (acc : Tally) {s : State},
    s.Attends q →
    (∀ wait ∈ waits, wait.ready = true → wait.key = q.key → s.events.HasSeen q.key) →
    (p.visitAll acc waits).Attending q (fun _ _ => True) s
  | [], _, _, _, _ => attending_done fun _ _ => trivial
  | wait :: rest, acc, s, hs, hw => by
      have hvisit := attending_visit hq hs p acc (hw wait List.mem_cons_self)
      refine attending_bind (hvisit.remember.mono fun acc' t ht => ?_)
      exact attending_visitAll p rest acc' (ht.2.2 hs) fun w hm hready hk =>
        ht.2.hasSeen (hw w (List.mem_cons_of_mem _ hm) hready hk)

theorem attending_sweep (hs : s.Attends q) (p : Poller) :
    p.sweep.Attending q (fun _ _ => True) s := by
  refine attending_query hq trivial fun t hst _ => ?_
  refine attending_visitAll hq p _ _ (hst.2 hs) fun wait hm hready hk => ?_
  obtain ⟨⟨key, hr⟩, -⟩ := RecordStore.mem_paused.mp hm
  obtain rfl := (hst.2 hs).events.keyed key wait hr
  exact ⟨wait, hk ▸ hr, ((hst.2 hs).events.wait _ wait hr hk).2.2 hready⟩

end Poller

/-! ## Verifications -/

namespace Verifier

/-- What a verification of `q'` may come to, begun in the state `s`: it does not fail, and it passes
if its event was there when it began. -/
structure Outlook (q q' : Question) (s : State) (v : Except Fault Verification) : Prop where
  ended : passed v = true ∨ v = .ok (.notReady q'.key)
  seen : q' = q → s.events.HasSeen q.key → passed v = true

theorem attending_look (hs : s.Attends q) (q' : Question) :
    (Verifier.ask q').Attending q (fun v _ => Outlook q q' s v) s := by
  refine attending_query hq trivial fun t hst _ => ?_
  cases hl : t.events.latest? q'.order q'.eventType with
  | some e =>
      simp only [State.answer, State.answerEvents, hl]
      exact attending_after hq (Progress.asks_mark _ _ _ _) fun _ _ _ =>
        attending_done fun _ _ => ⟨.inl rfl, fun _ _ => rfl⟩
  | none =>
      simp only [State.answer, State.answerEvents, hl]
      have hnot : ¬ (q' = q ∧ s.events.HasSeen q.key) := by
        rintro ⟨rfl, hseen⟩
        obtain ⟨e, he⟩ := (hst.2 hs).events.latest? (hst.hasSeen hseen)
        cases hl.symm.trans he
      refine attending_query hq trivial fun _ _ _ => ?_
      refine attending_request hq fun _ _ _ => ⟨fun _ => trivial, fun _ => ?_⟩
      exact attending_after hq (Progress.asks_mark _ _ _ _) fun _ _ _ =>
        attending_note hq _ fun _ _ => ⟨.inr rfl, fun heq hseen => absurd ⟨heq, hseen⟩ hnot⟩

/-- A verification finds its event if it is there, and else leaves a wait of its own question
behind. -/
theorem attending_verify (hs : s.Attends q) (q' : Question) :
    (verify q').Attending q (fun v _ => Outlook q q' s v) s := by
  refine attending_after hq (Progress.asks_succeeded _ _) fun passed t hst => ?_
  cases passed with
  | false =>
      exact (attending_look hq (hst.2 hs) q').mono fun _ _ h =>
        ⟨h.ended, fun heq hseen => h.seen heq (hst.hasSeen hseen)⟩
  | true =>
      refine attending_query hq trivial fun _ _ _ => ?_
      exact attending_after hq (Progress.asks_data _ _) fun _ _ _ =>
        attending_done fun _ _ => ⟨.inl rfl, fun _ _ => rfl⟩

end Verifier

end

end Rendezvous
