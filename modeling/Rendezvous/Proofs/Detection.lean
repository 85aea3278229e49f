import Mathlib.Data.List.Induction
import Rendezvous.Proofs.Sweeping
import Rendezvous.Proofs.Verifying

/-!
# What a detected event stands for

The store keeps one type in a record, whether it is the type of an observation or the type a wait
is for. A look-up of an order and type answers with records that carry an event time, so it should
answer only when an event of that type has come in. That is so as long as no pause puts a type of
its own on a record that holds an observation already: the time in the record is then that of
another event. `detection_iff` says that such a pause is the only way to be misled, and
`look_up_misled` that it does mislead.
-/

namespace Rendezvous

open Proc

/-! ## Runs -/

/-- What can happen to a process, one thing after the other. Nothing fails, and each runs to its end
before the next begins. -/
inductive Activity
  | save (e : Record)
  | accept (g : Engine) (e : Record)
  | pause (context : Record)
  | poll (p : Poller)
  | verify (q : Question)
  | wait (ms : Nat)

namespace State

def perform (s : State) : Activity → State
  | .save e => (run answer (Proc.events (.save e)) s).2
  | .accept g e => (run answer (g.accept e) s).2
  | .pause context => (run answer (Proc.events (.markPaused context)) s).2
  | .poll p => (run answer p.sweep s).2
  | .verify q => (run answer (Verifier.verify q) s).2
  | .wait ms => s.wait ms

def performAll (s : State) (as : List Activity) : State := as.foldl perform s

theorem performAll_append (s : State) (as bs : List Activity) :
    s.performAll (as ++ bs) = (s.performAll as).performAll bs := List.foldl_append ..

end State

namespace Activity

/-- Events that come in carry a time and a type, and pauses are of bare waits. Adapters and
verifiers make such records. -/
def Honest : Activity → Prop
  | .save e | .accept _ e => e.isObserved = true ∧ e.eventType.isSome = true
  | .pause context => context.isObserved = false
  | _ => True

def Brings (t : String) : Activity → Prop
  | .save e | .accept _ e => e.eventType = some t
  | _ => False

/-- A wait for type `t` is put on a record that holds an observation, which then counts as one of
that type. -/
def Overwrites (t : String) (s : State) : Activity → Prop
  | .pause context => context.eventType = some t
      ∧ (s.events.find? context.key).any (·.isObserved) = true
  | .verify q => q.eventType = t ∧ (s.events.find? q.key).any (·.isObserved) = true
      ∧ (run State.answer (Verifier.verify q) s).1 = .ok (.notReady q.key)
  | _ => False

end Activity

/-! ## The types that observations carry -/

/-- Every record that holds an observation and has a type has one of the types `P`. Look-ups give
out nothing else then. -/
def RecordStore.Typed (P : String → Prop) (s : RecordStore) : Prop :=
  s.All fun _ r => r.isObserved = true → ∀ t, r.eventType = some t → P t

/-- A merged record has its type from the event, or it held an observation of the type before: a
wait keeps its type, and absorbs an event only if that is of the type too. -/
theorem Record.typed_of_merge {r e : Record} {t : String} (ho : (r.merge e).isObserved = true)
    (ht : (r.merge e).eventType = some t) :
    r.isObserved = true ∧ r.eventType = some t ∨ e.eventType = some t := by
  by_cases hp : r.paused = true
  · rw [merge_eventType_of_paused e hp] at ht
    by_cases ha : r.awaits e.eventType = true
    · refine .inr ?_
      simpa [awaits, ht] using ha
    · rw [merge, if_pos hp, if_neg ha] at ho
      exact .inl ⟨ho, ht⟩
  · rw [merge_eventType, if_neg hp] at ht
    exact .inr ht

namespace RecordStore

variable {P : String → Prop} {s : RecordStore}

theorem Typed.mono {Q : String → Prop} (h : s.Typed P) (hPQ : ∀ t, P t → Q t) : s.Typed Q :=
  fun key r hr ho t ht => hPQ t (h key r hr ho t ht)

theorem Typed.save (h : s.Typed P) {e : Record} (he : ∀ t, e.eventType = some t → P t) :
    (s.save e).Typed P := by
  refine All.save h (fun _ => he) fun r hr ho t ht => ?_
  rcases Record.typed_of_merge ho ht with ⟨hro, hrt⟩ | het
  · exact h _ r hr hro t hrt
  · exact he t het

theorem Typed.markPaused (h : s.Typed P) {context : Record} {now : Instant}
    (hc : context.isObserved = false)
    (hP : ∀ t, context.eventType = some t →
      (s.find? context.key).any (·.isObserved) = true → P t) :
    (s.markPaused context now).Typed P := by
  refine All.markPaused h (fun ho => ?_) fun r hr ho t ht => ?_
  · exact absurd (ho.symm.trans hc) (by decide)
  · rw [Record.pause_isObserved] at ho
    change (context.eventType <|> r.eventType) = some t at ht
    cases hct : context.eventType with
    | none =>
        rw [hct] at ht
        exact h _ r hr ho t ht
    | some u =>
        rw [hct] at ht
        exact hP t (hct.trans ht) (by rw [hr]; exact ho)

theorem Typed.markReady (h : s.Typed P) (k : String) : (s.markReady k).2.Typed P :=
  All.markReady h fun r hr => h _ r hr

end RecordStore

section

variable {P : String → Prop} {x : Exposure} {s t : State}

theorem Engine.Accepted.typed {g : Engine} {e : Record} {o : Outcome}
    (h : g.Accepted x e s o t) (hs : s.events.Typed P) (he : ∀ u, e.eventType = some u → P u) :
    t.events.Typed P := by
  cases h with
  | ignored => exact hs
  | @settled s₁ o t hkey hp h =>
      have h₁ : s₁.events.Typed P := by
        cases hp with
        | saved => exact hs.save he
        | failed => exact hs
      cases h with
      | resumeReady => rw [State.resumed_events]; exact h₁.markReady _
      | _ => exact h₁

theorem Poller.Visited.typed {p : Poller} {acc acc' : Tally} {wait : Record}
    (h : p.Visited x acc wait s acc' t) (hs : s.events.Typed P) : t.events.Typed P := by
  cases h with
  | ready hr h => cases h <;> exact hs
  | lookupFailed | nothing => exact hs
  | delegated hr hc h =>
      refine h.typed hs fun u hu => ?_
      obtain ⟨r, ⟨key, hk⟩, -, ho, rfl, -⟩ := RecordStore.candidate?_some hc
      exact hs key r hk ho u hu

/-- What comes in, and what is overwritten, are the only types a step adds to the records that hold
an observation. A run is gone through by this, step by step. -/
theorem State.typed_perform {a : Activity} (hs : s.events.Typed P) (ha : a.Honest)
    (hb : ∀ u, a.Brings u → P u) (ho : ∀ u, a.Overwrites u s → P u) :
    (s.perform a).events.Typed P := by
  cases a with
  | save e => exact hs.save hb
  | accept g e => exact (Engine.leads_accept .none g e s).run.typed hs hb
  | pause context => exact hs.markPaused ha fun u hu hobs => ho u ⟨hu, hobs⟩
  | poll p =>
      have hrun := (Poller.leads_sweep (x := .none) (p := p) (J := fun _ _ t => t.events.Typed P)
        (fun _ _ _ _ _ _ h hv => hv.typed h) hs).run
      rcases hrun with h | ⟨h, -⟩
      · exact h
      · cases h
  | verify q =>
      have hv := (Verifier.leads_verify .none q s).run
      change (run State.answer (Verifier.verify q) s).2.events.Typed P
      generalize hres : (run State.answer (Verifier.verify q) s).1 = v at hv
      generalize (run State.answer (Verifier.verify q) s).2.events = w at hv ⊢
      cases hv with
      | notReady hl =>
          refine hs.markPaused rfl fun u hu hobs => ho u ⟨Option.some.inj hu, hobs, hres⟩
      | _ => exact hs
  | wait ms => exact hs

end

/-! ## When a look-up can be trusted -/

/-- A wait for `t` on a record that holds an observation is found at once, as an event of that
type. -/
theorem RecordStore.misled_markPaused {s : RecordStore} {context : Record} {t : String}
    (ht : context.eventType = some t) (ho : (s.find? context.key).any (·.isObserved) = true)
    (now : Instant) : ∃ order r, (s.markPaused context now).latest? order t = some r := by
  obtain ⟨r, hr, hobs⟩ := (Option.any_eq_true _ _).mp ho
  have hk : (s.markPaused context now).find? context.key = some (r.pause context now) := by
    rw [find?_markPaused, if_pos rfl, hr]
    rfl
  have hrt : (r.pause context now).eventType = some t := by
    change (context.eventType <|> r.eventType) = some t
    rw [ht]
    rfl
  exact ⟨_, Observes.latest? ⟨⟨context.key, hk⟩, rfl, hrt, hobs⟩⟩

theorem Activity.Overwrites.misleads {s : State} {a : Activity} {t : String}
    (h : a.Overwrites t s) : ∃ order r, (s.perform a).events.latest? order t = some r := by
  cases a with
  | pause context => exact RecordStore.misled_markPaused h.1 h.2 _
  | verify q =>
      obtain ⟨rfl, hobs, hres⟩ := h
      have hv := (Verifier.leads_verify .none q s).run
      rw [hres] at hv
      change ∃ order r, (run State.answer (Verifier.verify q) s).2.events.latest? _ _ = _
      generalize (run State.answer (Verifier.verify q) s).2.events = w at hv ⊢
      cases hv with
      | notReady hl => exact RecordStore.misled_markPaused rfl hobs _
  | _ => exact h.elim

theorem Activity.Overwrites.not_brings {s : State} {a : Activity} {t : String}
    (h : a.Overwrites t s) : ¬ a.Brings t := by
  cases a with
  | pause _ | verify _ => exact id
  | _ => exact h.elim

/-- **When detection is sound.** In a run from an empty store, look-ups answer only for types of
which an event has come in, throughout the run, if and only if every wait that is put on a record
holding an observation is for such a type. -/
theorem detection_iff {s : State} (hs : s.events = .empty) {as : List Activity}
    (has : ∀ a ∈ as, a.Honest) :
    (∀ before, before <+: as → ∀ order t r,
        (s.performAll before).events.latest? order t = some r → ∃ a ∈ before, a.Brings t)
      ↔ (∀ before a, before ++ [a] <+: as → ∀ t, a.Overwrites t (s.performAll before) →
        ∃ b ∈ before, b.Brings t) := by
  constructor
  · intro h before a hpre t ho
    obtain ⟨order, r, hr⟩ := ho.misleads
    obtain ⟨b, hb, hbt⟩ := h _ hpre order t r (by rw [State.performAll_append]; exact hr)
    rcases List.mem_append.mp hb with hb | hb
    · exact ⟨b, hb, hbt⟩
    · obtain rfl := List.mem_singleton.mp hb
      exact absurd hbt ho.not_brings
  · intro h before hpre order t r hr
    obtain ⟨⟨key, hk⟩, -, ht, hobs⟩ := RecordStore.observes_of_latest? hr
    refine (?_ : RecordStore.Typed (fun t => ∃ a ∈ before, a.Brings t) _) key r hk hobs t ht
    clear hr hk
    induction before using List.reverseRecOn with
    | nil =>
        rw [State.performAll, List.foldl_nil, hs]
        exact RecordStore.all_empty _
    | append_singleton before a ih =>
        have hpre' := (List.prefix_append before [a]).trans hpre
        rw [State.performAll_append]
        refine State.typed_perform ((ih hpre').mono ?_) (has a (hpre.subset (by simp))) ?_ ?_
        · rintro t ⟨b, hb, hbt⟩
          exact ⟨b, List.mem_append_left _ hb, hbt⟩
        · exact fun t hbt => ⟨a, by simp, hbt⟩
        · intro t ho
          obtain ⟨b, hb, hbt⟩ := h before a hpre t ho
          exact ⟨b, List.mem_append_left _ hb, hbt⟩

/-- A wait for a shipment, the shipment, and a cycle that resumes the wait, all as they should
be. -/
def shipment : List Activity :=
  [.pause (.placeholder "ORD1::SHIPPED" "ORD1" (some "SHIPPED") default),
    .save (.observed "ORD1" "SHIPPED" .null default), .poll ⟨"x", ⟨none⟩, 0⟩]

theorem shipment_found : ∃ r,
    ((State.initial fun _ => ⟨0, 1, fun _ => 0⟩).performAll shipment).events.latest?
      "ORD1" "SHIPPED" = some r ∧ ∃ a ∈ shipment, a.Brings "SHIPPED" := by
  have honest : ∀ a ∈ shipment, a.Honest := by
    simp only [shipment, List.forall_mem_cons, Activity.Honest]
    exact ⟨rfl, ⟨rfl, rfl⟩, trivial, by simp⟩
  have bare : ∀ before a, before ++ [a] <+: shipment → ∀ t,
      a.Overwrites t ((State.initial fun _ => ⟨0, 1, fun _ => 0⟩).performAll before) →
        ∃ b ∈ before, b.Brings t := by
    rintro before a ⟨rest, hpre⟩ t ho
    match before, hpre with
    | [], hpre =>
        obtain rfl := (List.cons.inj hpre).1
        obtain ⟨-, hobs⟩ := ho
        cases hobs
    | [_], hpre =>
        obtain rfl := (List.cons.inj (List.cons.inj hpre).2).1
        exact ho.elim
    | [_, _], hpre =>
        obtain rfl := (List.cons.inj (List.cons.inj (List.cons.inj hpre).2).2).1
        exact ho.elim
    | _ :: _ :: _ :: l, hpre =>
        have hlen := congrArg List.length hpre
        simp [shipment] at hlen
  obtain ⟨r, hr⟩ := Option.isSome_iff_exists.mp (show
    (((State.initial fun _ => ⟨0, 1, fun _ => 0⟩).performAll shipment).events.latest?
      "ORD1" "SHIPPED").isSome = true from rfl)
  exact ⟨r, hr, (detection_iff rfl honest).mpr bare shipment (List.prefix_refl _) _ _ r hr⟩

/-- A shipment, and a wait for a cancellation put on its record, from where the shipment is given
out as a cancellation. -/
def cancellation : List Activity :=
  [.save (.observed "ORD1" "SHIPPED" .null default),
    .pause (.placeholder "ORD1::SHIPPED" "ORD1" (some "CANCELLED") default)]

/-- A look-up can answer for a type of which no event has come in, once a wait for that type was put
on the record of another event. -/
theorem look_up_misled : ¬ ∀ (s : State) (as : List Activity), s.events = .empty →
    (∀ a ∈ as, a.Honest) → ∀ order t r, (s.performAll as).events.latest? order t = some r →
      ∃ a ∈ as, a.Brings t := by
  intro h
  have honest : ∀ a ∈ cancellation, a.Honest := by
    simp only [cancellation, List.forall_mem_cons, Activity.Honest]
    exact ⟨⟨rfl, rfl⟩, rfl, by simp⟩
  have found : (((State.initial fun _ => ⟨0, 1, fun _ => 0⟩).performAll cancellation).events.latest?
      "ORD1" "CANCELLED").isSome = true := by rfl
  obtain ⟨r, hr⟩ := Option.isSome_iff_exists.mp found
  obtain ⟨a, ha, hb⟩ := h _ _ rfl honest _ _ r hr
  simp only [cancellation, List.mem_cons, List.not_mem_nil, or_false] at ha
  rcases ha with rfl | rfl
  · exact absurd (Option.some.inj hb) (by decide)
  · exact hb

end Rendezvous
