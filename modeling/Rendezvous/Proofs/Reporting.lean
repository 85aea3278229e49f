import Rendezvous.Proofs.Flags
import Rendezvous.Proofs.Redelivery

/-!
# What an outcome reports

An engine that is given an event answers with an outcome. However its calls fail, the outcome says
what the engine has done (`Engine.story`): which calls it made after the event was saved or not, how
they went, and that it completed its mailbox, once, if it made the wait ready and at no other time.
It says what became of the event (`outcome_reports`). The store decides whether a wait takes the
event in, before the engine sees the wait, and the engine decides by what it reads back; the two
never disagree, since taking the event in does not change the type that the wait is for.
-/

namespace Rendezvous

/-! ## What an event does to a wait -/

namespace Record

/-- The record with the observation of `e` taken in, as a wait does that accepts it. -/
def taking (r e : Record) : Record :=
  { r with order := if r.order = "" then e.order else r.order }.absorb e

theorem merge_of_paused {r : Record} (e : Record) (h : r.paused = true) :
    r.merge e = if r.awaits e.eventType then r.taking e else r := if_pos h

end Record

namespace State

variable (s : State) (e : Record) (saved : Bool)

theorem isReady_savedIf (key : String) :
    (s.savedIf e saved).events.isReady key = s.events.isReady key := by
  cases saved with
  | false => rfl
  | true => exact s.events.isReady_save e key

theorem find?_savedIf_other {key : String} (h : key ≠ e.key) :
    (s.savedIf e saved).events.find? key = s.events.find? key := by
  cases saved with
  | false => rfl
  | true => exact (s.events.find?_save e key).trans (if_neg h)

theorem find?_savedIf_of_some {r : Record} (h : s.events.find? e.key = some r) :
    (s.savedIf e saved).events.find? e.key = some (if saved then r.merge e else r) := by
  cases saved with
  | false => exact h
  | true =>
      change (s.events.save e).find? e.key = _
      rw [RecordStore.find?_save, if_pos rfl, h]
      rfl

theorem find?_savedIf_of_none (h : s.events.find? e.key = none) :
    (s.savedIf e saved).events.find? e.key = if saved then some e.fresh else none := by
  cases saved with
  | false => exact h
  | true =>
      change (s.events.save e).find? e.key = _
      rw [RecordStore.find?_save, if_pos rfl, h]
      rfl

end State

/-! ## The way to an outcome -/

/-- The outcome says that the event is one that the wait is for, whatever came of that. -/
def Outcome.saysMerged : Outcome → Bool
  | .resumeReady | .alreadyReady | .markFailed => true
  | _ => false

namespace Engine

open Proc

/-- What is done about an event, in turn, given whether it was saved and the outcome. There is
nothing else that the engine does. -/
def story (g : Engine) (e : Record) (saved : Bool) (o : Outcome) : List Action :=
  if o = .ignored then []
  else .called (.save e) saved :: .called (.find e.key) (o ≠ .lookupFailed) :: g.ending e o

variable {x : Exposure} {g : Engine} {e r : Record} {s t : State} {o : Outcome}

namespace Settled

theorem paused_of_resumeReady (h : g.Settled x e s o t) (ho : o = .resumeReady) :
    ∃ r, s.events.find? e.key = some r ∧ r.paused = true := by
  cases h with
  | resumeReady hr hp => exact ⟨_, hr, hp⟩
  | _ => cases ho

theorem mailboxes_eq (h : g.Settled x e s o t) (id : MailboxId) :
    t.mailboxes id = if o = .resumeReady ∧ g.mailbox = some id
      then ((s.mailboxes id).complete (s.retention id) s.clock e.key e).2 else s.mailboxes id := by
  rw [h.state_eq]
  by_cases ho : o = .resumeReady
  · rw [if_pos ho, State.resumed]
    cases hm : g.mailbox with
    | none => simp
    | some mailbox =>
        by_cases hid : id = mailbox
        · subst hid
          simp [ho, State.complete, State.setMailbox]
        · simp [State.complete, State.setMailbox, hid, Ne.symm hid]
  · rw [if_neg ho, if_neg fun h => ho h.1]

theorem flipped (h : g.Settled x e s o t) :
    o = .resumeReady ↔ s.events.isReady e.key = false ∧ t.events.isReady e.key = true := by
  constructor
  · rintro rfl
    cases h with
    | resumeReady hr _ _ hready =>
        refine ⟨?_, ?_⟩
        · rw [RecordStore.isReady, hr]
          exact hready
        · rw [State.resumed_events]
          exact RecordStore.isReady_markReady_self hr
  · rintro ⟨hbefore, hafter⟩
    by_contra ho
    rw [h.events_eq, if_neg ho, hbefore] at hafter
    cases hafter

end Settled

/-- Every way of an event, with what is done on it and the state it leaves. -/
inductive Recounted (x : Exposure) (g : Engine) (e : Record) (s : State) :
    List Action → Outcome → State → Prop
  | ignored : Text.blank e.key = true → Recounted x g e s (g.story e false .ignored) .ignored s
  | settled {o : Outcome} {t : State} (saved : Bool) : Text.blank e.key = false →
      Settled x g e (s.savedIf e saved) o t → Recounted x g e s (g.story e saved o) o t

theorem acts_accept (x : Exposure) (g : Engine) (e : Record) (s : State) :
    Acts x (Recounted x g e s) (g.accept e) s := by
  cases hkey : Text.blank e.key with
  | true =>
      rw [accept_of_blank g hkey]
      exact acts_note (acts_done.mpr (.ignored hkey))
  | false =>
      rw [accept_eq g hkey]
      refine acts_bind ((acts_persist x e s).mono ?_)
      rintro _ _ _ ⟨saved, rfl, rfl, -⟩
      refine (acts_settle x g e _).mono ?_
      rintro _ o t ⟨rfl, h⟩
      have hway := Recounted.settled saved hkey h
      rwa [story, if_neg h.ne_ignored] at hway

/-! ## What the outcome says -/

theorem completions_story (g : Engine) (e : Record) (saved : Bool) (o : Outcome) :
    (g.story e saved o).filterMap Action.completion?
      = if o = .resumeReady then (g.mailbox.map (·, e.key, e)).toList else [] := by
  cases o with
  | resumeReady =>
      change ((g.mailbox.map (Action.completed · e.key e)).toList).filterMap _ = _
      cases g.mailbox <;> rfl
  | _ => rfl

theorem saved_of_mem_story {saved : Bool} (h : .called (.save e) true ∈ g.story e saved o) :
    saved = true := by
  unfold story at h
  split at h
  · cases h
  · have hending : .called (.save e) true ∉ g.ending e o := by cases o <;> simp [ending]
    simpa [hending] using h

theorem found_of_mem_story {saved : Bool} (h : .called (.find e.key) true ∈ g.story e saved o) :
    o ≠ .lookupFailed := by
  rintro rfl
  simp [story, ending] at h

namespace Settled

theorem saysMerged_eq (h : g.Settled x e s o t) (hr : s.events.find? e.key = some r)
    (hp : r.paused = true) (ho : o ≠ .lookupFailed) : o.saysMerged = r.awaits e.eventType := by
  cases h with
  | lookupFailed => exact absurd rfl ho
  | absent hq => cases hr.symm.trans hq
  | unpaused hq hq' =>
      obtain rfl := Option.some.inj (hr.symm.trans hq)
      exact absurd (hp.symm.trans hq') (by decide)
  | mismatch hq _ ha | alreadyReady hq _ ha | markFailed hq _ ha | resumeReady hq _ ha =>
      obtain rfl := Option.some.inj (hr.symm.trans hq)
      exact ha.symm

variable {saved : Bool}

/-- A wait for something else has not taken the event in. -/
theorem eq_of_mismatch (h : g.Settled x e (s.savedIf e saved) .mismatch t) : t = s := by
  cases h with
  | mismatch hq hp ha =>
      cases saved with
      | false => rfl
      | true =>
          cases hr : s.events.find? e.key with
          | none =>
              rw [s.find?_savedIf_of_none e true hr] at hq
              obtain rfl := Option.some.inj hq
              cases hp
          | some r =>
              rw [s.find?_savedIf_of_some e true hr] at hq
              obtain rfl : r.merge e = _ := Option.some.inj hq
              rw [Record.merge_paused] at hp
              rw [Record.merge_awaits_of_paused e hp] at ha
              have hmerge : r.merge e = r := by
                rw [Record.merge_of_paused e hp, ha]
                rfl
              change { s with events := s.events.save e } = s
              rw [RecordStore.save_of_merge_eq hr hmerge]

theorem kept (h : g.Settled x e (s.savedIf e saved) o t) (hr : s.events.find? e.key = some r) :
    ∃ q, t.events.find? e.key = some q ∧ r.KeepsWait q := by
  have hsaved : r.KeepsWait (if saved then r.merge e else r) := by
    split
    · exact r.keepsWait_merge e
    · exact .rfl
  have hfind := h.find?_self
  rw [s.find?_savedIf_of_some e saved hr] at hfind
  exact ⟨_, hfind, hsaved.set_ready _⟩

theorem made (h : g.Settled x e (s.savedIf e saved) o t) (hnone : s.events.find? e.key = none) :
    ∀ q, t.events.find? e.key = some q → q = e.fresh := by
  have hsaved := s.find?_savedIf_of_none e saved hnone
  have ho : o ≠ .resumeReady := by
    intro ho
    obtain ⟨r, hr, hp⟩ := h.paused_of_resumeReady ho
    rw [hsaved] at hr
    split at hr
    · obtain rfl := Option.some.inj hr
      cases hp
    · cases hr
  intro q hq
  rw [h.events_eq, if_neg ho, hsaved] at hq
  split at hq
  · exact (Option.some.inj hq).symm
  · cases hq

/-- The store takes the event in as the engine reports it, since the type awaited stays. The engine
looks at the record after the save and the store at the one before, and both see the same type. -/
theorem merged (h : g.Settled x e (s.savedIf e true) o t) (hr : s.events.find? e.key = some r)
    (hp : r.paused = true) (ho : o ≠ .lookupFailed) :
    o.saysMerged = r.awaits e.eventType
      ∧ t.events.find? e.key = some { (if o.saysMerged then r.taking e else r) with
          ready := r.ready || o = .resumeReady } := by
  have hsaved : (s.savedIf e true).events.find? e.key = some (r.merge e) :=
    s.find?_savedIf_of_some e true hr
  have hgist := h.saysMerged_eq hsaved ((r.merge_paused e).trans hp) ho
  rw [Record.merge_awaits_of_paused e hp] at hgist
  refine ⟨hgist, ?_⟩
  rw [h.find?_self, hsaved, hgist, ← Record.merge_of_paused e hp, Option.map_some,
    Record.merge_ready]

end Settled

/-- What the outcome of an event says of what was done, and of the state `t` that `s` has become.
Each field is one thing that a caller can conclude from it. -/
structure Reports (g : Engine) (e : Record) (s : State) (l : List Action) (o : Outcome)
    (t : State) : Prop where
  told : ∃ saved, l = g.story e saved o
  flipped : o = .resumeReady ↔ s.events.isReady e.key = false ∧ t.events.isReady e.key = true
  completed : l.filterMap Action.completion?
    = if o = .resumeReady then (g.mailbox.map (·, e.key, e)).toList else []
  mailboxes : ∀ id, t.mailboxes id = if o = .resumeReady ∧ g.mailbox = some id
    then ((s.mailboxes id).complete (s.retention id) s.clock e.key e).2 else s.mailboxes id
  unchanged : o = .ignored ∨ o = .mismatch → t = s
  elsewhere : ∀ key, key ≠ e.key → t.events.find? key = s.events.find? key
  kept : ∀ r, s.events.find? e.key = some r →
    ∃ q, t.events.find? e.key = some q ∧ r.KeepsWait q
  made : s.events.find? e.key = none → ∀ q, t.events.find? e.key = some q → q = e.fresh
  merged : ∀ r, s.events.find? e.key = some r → r.paused = true →
    .called (.save e) true ∈ l → .called (.find e.key) true ∈ l →
      o.saysMerged = r.awaits e.eventType
        ∧ t.events.find? e.key = some { (if o.saysMerged then r.taking e else r) with
            ready := r.ready || o = .resumeReady }

theorem reports_ignored (g : Engine) (e : Record) (s : State) :
    g.Reports e s (g.story e false .ignored) .ignored s where
  told := ⟨false, rfl⟩
  flipped := by
    constructor
    · intro h
      cases h
    · rintro ⟨hbefore, hafter⟩
      cases hbefore.symm.trans hafter
  completed := g.completions_story e _ _
  mailboxes _ := (if_neg fun h => by cases h.1).symm
  unchanged _ := rfl
  elsewhere _ _ := rfl
  kept r hr := ⟨r, hr, .rfl⟩
  made hnone _ hq := by cases hnone.symm.trans hq
  merged _ _ _ hsave _ := by cases saved_of_mem_story hsave

theorem Settled.reports {saved : Bool} (h : g.Settled x e (s.savedIf e saved) o t) :
    g.Reports e s (g.story e saved o) o t where
  told := ⟨saved, rfl⟩
  flipped := s.isReady_savedIf e saved e.key ▸ h.flipped
  completed := g.completions_story e _ _
  mailboxes id := by
    rw [h.mailboxes_eq id]
    cases saved <;> rfl
  unchanged := by
    rintro (rfl | rfl)
    · exact absurd rfl h.ne_ignored
    · exact h.eq_of_mismatch
  elsewhere _ hne := (h.find?_other hne).trans (s.find?_savedIf_other e saved hne)
  kept _ hr := h.kept hr
  made hnone := h.made hnone
  merged _ hr hp hsave hfind := by
    obtain rfl := saved_of_mem_story hsave
    exact h.merged hr hp (found_of_mem_story hfind)

theorem Recounted.reports {l : List Action} (h : Recounted x g e s l o t) :
    g.Reports e s l o t := by
  cases h with
  | ignored => exact g.reports_ignored e s
  | settled saved _ h => exact h.reports

/-- Whatever fails, the outcome of an event tells what has happened, to the records and to the
mailboxes. -/
theorem outcome_reports (g : Engine) (e : Record) (s : State) (faults : Nat → Option Fault) :
    g.Reports e s (actions .all faults (g.accept e) s) (runFaulty .all faults (g.accept e) s).1
      (runFaulty .all faults (g.accept e) s).2 :=
  ((acts_accept .all g e s).runFaulty faults).reports

/-- The call to mark the wait fails: it is not ready, and has the event all the same. -/
example :
    let wait := Record.placeholder "ORD1::SHIPPED" "ORD1" (some "SHIPPED") default
    let s := State.initial fun _ => ⟨0, 1, fun _ => 0⟩
    let s := { s with events := s.events.markPaused wait default }
    let run := runFaulty .all (fun n => if n = 2 then some ⟨"reset"⟩ else none)
      (Engine.accept ⟨some 0⟩ (.observed "ORD1" "SHIPPED" .null default)) s
    run.1 = .markFailed ∧ run.2.events.isReady "ORD1::SHIPPED" = false
      ∧ (run.2.events.find? "ORD1::SHIPPED").any (·.isObserved) = true := by
  refine ⟨rfl, rfl, rfl⟩

end Engine

end Rendezvous
