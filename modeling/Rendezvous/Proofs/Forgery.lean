import Mathlib.Data.List.Forall2
import Rendezvous.Poller
import Rendezvous.Proofs.Acceptance
import Rendezvous.Proofs.Masking
import Rendezvous.Proofs.Pool
import Rendezvous.Verification

/-!
# Forged waits

What belongs to a wait is for the store to say. Two runs that do the same, except that the events
and waits handed in may differ in just these fields, cannot be told apart: they keep the same
records and the same scenarios at every step, and everything that is asked, accepted, polled and
verified has the same outcome (`forgery_without_effect`).

The two runs are followed side by side. `Proc.Alike` relates procedures that make the same requests
with records that are alike, and one step of two such procedures leads to two such procedures again.
-/

namespace Rendezvous

namespace Proc

/-- The two procedures make the same requests in the same order, with records that are alike, and go
on alike after every answer. -/
inductive Alike {α : Type} : Proc α → Proc α → Prop
  | done (a : α) : Alike (.done a) (.done a)
  | ask {r : Request} {next next' : r.Answer → Proc α} (hn : ∀ x, Alike (next x) (next' x)) :
      Alike (.ask r next) (.ask r next')
  | save {e d : Record} {next next' : Except Fault Unit → Proc α} (he : e.Alike d)
      (hn : ∀ x, Alike (next x) (next' x)) :
      Alike (.ask (.events (.save e)) next) (.ask (.events (.save d)) next')
  | markPaused {e d : Record} {next next' : Except Fault Unit → Proc α} (he : e.Alike d)
      (hn : ∀ x, Alike (next x) (next' x)) :
      Alike (.ask (.events (.markPaused e)) next) (.ask (.events (.markPaused d)) next')
  | complete {mailbox : MailboxId} {key : String} {e d : Record}
      {next next' : Completion → Proc α} (he : e.Alike d) (hn : ∀ x, Alike (next x) (next' x)) :
      Alike (.ask (.complete mailbox key e) next) (.ask (.complete mailbox key d) next')

variable {α β : Type} {p q : Proc α} {s t : State}

theorem Alike.refl : ∀ p : Proc α, p.Alike p
  | .done a => .done a
  | .ask _ next => .ask fun x => Alike.refl (next x)

theorem Alike.bind (h : p.Alike q) {f f' : α → Proc β} (hf : ∀ a, (f a).Alike (f' a)) :
    (p >>= f).Alike (q >>= f') := by
  induction h with
  | done a => exact hf a
  | ask _ ih => exact .ask ih
  | save he _ ih => exact .save he ih
  | markPaused he _ ih => exact .markPaused he ih
  | complete he _ ih => exact .complete he ih

theorem Alike.request (r : Request) {f f' : r.Answer → Proc α} (hf : ∀ x, (f x).Alike (f' x)) :
    (Proc.request r >>= f).Alike (Proc.request r >>= f') := .ask hf

theorem Alike.next {X : Type} {next next' : X → Proc α} (hn : ∀ x, (next x).Alike (next' x))
    {x y : X} (h : x = y) : (next x).Alike (next' y) := h ▸ hn x

/-- One step of each leads to procedures and states that are alike again, since the answers they get
are the same. -/
theorem Alike.advance (h : p.Alike q) (hs : s.Alike t) (x : Exposure) (fault : Option Fault) :
    (Proc.advance x fault p s).1.Alike (Proc.advance x fault q t).1
      ∧ (Proc.advance x fault p s).2.Alike (Proc.advance x fault q t).2 := by
  cases h with
  | done a => exact ⟨.done a, hs⟩
  | @ask r next next' hn =>
      obtain ⟨hanswer, hstate⟩ := hs.reply x fault r
      exact ⟨.next hn hanswer, hstate⟩
  | save he hn =>
      obtain ⟨hanswer, hstate⟩ := hs.reply_save x fault he
      exact ⟨.next hn hanswer, hstate⟩
  | markPaused he hn =>
      obtain ⟨hanswer, hstate⟩ := hs.reply_markPaused x fault he
      exact ⟨.next hn hanswer, hstate⟩
  | @complete mailbox key e d next next' he hn =>
      obtain ⟨hanswer, hstate⟩ := hs.complete he mailbox key
      exact ⟨.next hn hanswer, hstate⟩

theorem Alike.eq_done {a : α} (h : Alike (.done a) p) : p = .done a := by
  cases h
  rfl

theorem Alike.done_eq {a : α} (h : Alike p (.done a)) : p = .done a := by
  cases h
  rfl

end Proc

/-! ## Accepting -/

namespace Engine

open Proc

variable {e d : Record}

theorem persist_alike (h : e.Alike d) : (persist e).Alike (persist d) := by
  unfold persist
  rw [h.key_eq]
  refine .save h fun answer => ?_
  cases answer <;> exact .refl _

theorem resume_alike (g : Engine) (h : e.Alike d) (current : Record) :
    (g.resume e current).Alike (g.resume d current) := by
  unfold resume
  rw [h.key_eq, h.eventType_eq]
  split
  · exact .refl _
  · split
    · exact .refl _
    · split
      · exact .refl _
      · refine .request _ fun answer => ?_
        match answer with
        | .error f => exact .refl _
        | .ok false => exact .refl _
        | .ok true =>
            refine .request _ fun _ => ?_
            cases g.mailbox with
            | none => exact .refl _
            | some mailbox => exact Alike.bind (.complete h fun _ => .refl _) fun _ => .refl _

theorem settle_alike (g : Engine) (h : e.Alike d) : (g.settle e).Alike (g.settle d) := by
  unfold settle
  rw [h.key_eq]
  refine .request _ fun answer => ?_
  match answer with
  | .error f => exact .refl _
  | .ok none => exact .refl _
  | .ok (some current) => exact g.resume_alike h current

theorem accept_alike (g : Engine) (h : e.Alike d) : (g.accept e).Alike (g.accept d) := by
  cases hkey : Text.blank e.key with
  | true =>
      rw [accept_of_blank g hkey, accept_of_blank g (h.key_eq ▸ hkey), h.order_eq, h.eventType_eq]
      exact .refl _
  | false =>
      rw [accept_eq g hkey, accept_eq g (h.key_eq ▸ hkey)]
      exact (persist_alike h).bind fun _ => g.settle_alike h

end Engine

/-! ## Dealings -/

/-- What is done in a run: a call on the store, or an operation of a component. -/
inductive Dealing
  | call (c : EventCall)
  | accept (g : Engine) (e : Record)
  | poll (p : Poller)
  | verify (q : Question)

/-- What comes of a dealing for the one who asked for it. -/
inductive Report
  | written (r : Except Fault Unit)
  | flag (r : Except Fault Bool)
  | record (r : Except Fault (Option Record))
  | records (r : Except Fault (List Record))
  | outcome (o : Outcome)
  | tally (acc : Tally)
  | verification (r : Except Fault Verification)

namespace Dealing

def reported : (c : EventCall) → Except Fault c.Answer → Report
  | .save _, r | .markPaused _, r => .written r
  | .latest _ _, r | .find _, r => .record r
  | .markReady _, r | .isReady _, r => .flag r
  | .byOrder _, r | .paused, r => .records r

def proc : Dealing → Proc Report
  | .call c => do return reported c (← Proc.events c)
  | .accept g e => do return .outcome (← g.accept e)
  | .poll p => do return .tally (← p.sweep)
  | .verify q => do return .verification (← Verifier.verify q)

/-- The same dealing, with a record that may differ in what belongs to a wait. -/
inductive Alike : Dealing → Dealing → Prop
  | same (d : Dealing) : Alike d d
  | save {e d : Record} (he : e.Alike d) : Alike (.call (.save e)) (.call (.save d))
  | markPaused {e d : Record} (he : e.Alike d) :
      Alike (.call (.markPaused e)) (.call (.markPaused d))
  | accept (g : Engine) {e d : Record} (he : e.Alike d) : Alike (.accept g e) (.accept g d)

theorem Alike.proc {a b : Dealing} (h : a.Alike b) : a.proc.Alike b.proc := by
  cases h with
  | same => exact .refl _
  | save he => exact .save he fun _ => .done _
  | markPaused he => exact .markPaused he fun _ => .done _
  | accept g he => exact (g.accept_alike he).bind fun _ => .done _

/-- A pool with a thread for each of the dealings, none of which has begun. -/
def pool (s : State) (dealings : List Dealing) : Pool (Proc Report) :=
  ⟨s, dealings.map Dealing.proc⟩

end Dealing

/-! ## Two runs -/

namespace Pool

variable {α : Type}

/-- The states of the two pools are alike, and so are their threads one by one. Every step keeps
this. -/
structure Alike (w v : Pool (Proc α)) : Prop where
  state : w.state.Alike v.state
  threads : ∀ i : Nat, Option.Rel (fun p q : Proc α => p.Alike q) w.threads[i]? v.threads[i]?

variable {w v : Pool (Proc α)} {i : Nat} {p q : Proc α}

theorem Alike.exists_right (h : w.Alike v) (hp : w.threads[i]? = some p) :
    ∃ q, v.threads[i]? = some q ∧ p.Alike q := by
  have hi := h.threads i
  rw [hp] at hi
  cases hq : v.threads[i]? with
  | none =>
      rw [hq] at hi
      cases hi
  | some q => exact ⟨q, rfl, Option.rel_some_some.mp (hq ▸ hi)⟩

theorem Alike.exists_left (h : w.Alike v) (hq : v.threads[i]? = some q) :
    ∃ p, w.threads[i]? = some p ∧ p.Alike q := by
  have hi := h.threads i
  rw [hq] at hi
  cases hp : w.threads[i]? with
  | none =>
      rw [hp] at hi
      cases hi
  | some p => exact ⟨p, rfl, Option.rel_some_some.mp (hp ▸ hi)⟩

/-- Every decision of the scheduler leads from pools that are alike to such pools again. -/
theorem Alike.go (h : w.Alike v) (x : Exposure) (c : Choice) :
    (w.go (Proc.advance x) c).Alike (v.go (Proc.advance x) c) := by
  cases c with
  | wait ms => exact ⟨h.state.wait ms, h.threads⟩
  | step i fault =>
      rw [Pool.go, Pool.go]
      cases hp : w.threads[i]? with
      | none =>
          cases hq : v.threads[i]? with
          | none => exact h
          | some q =>
              obtain ⟨p, hp', -⟩ := h.exists_left hq
              cases hp.symm.trans hp'
      | some p =>
          obtain ⟨q, hq, hpq⟩ := h.exists_right hp
          obtain ⟨hthread, hstate⟩ := hpq.advance h.state x fault
          rw [hq]
          refine ⟨hstate, fun j => ?_⟩
          show Option.Rel _ (w.threads.set i _)[j]? (v.threads.set i _)[j]?
          by_cases hij : i = j
          · subst hij
            rw [List.getElem?_set_self', List.getElem?_set_self', hp, hq]
            exact .some hthread
          · rw [List.getElem?_set_ne hij, List.getElem?_set_ne hij]
            exact h.threads j

theorem Alike.run (h : w.Alike v) (x : Exposure) (schedule : List Choice) :
    (w.run (Proc.advance x) schedule).Alike (v.run (Proc.advance x) schedule) := by
  induction schedule generalizing w v with
  | nil => exact h
  | cons c schedule ih => exact ih (h.go x c)

end Pool

namespace Dealing

theorem pool_alike (s : State) {dealings forged : List Dealing}
    (h : List.Forall₂ Alike dealings forged) : (pool s dealings).Alike (pool s forged) := by
  refine ⟨State.Alike.rfl, ?_⟩
  show ∀ i : Nat, Option.Rel _ (dealings.map proc)[i]? (forged.map proc)[i]?
  induction h with
  | nil => exact fun _ => .none
  | cons hab _ ih =>
      intro i
      cases i with
      | zero => exact .some hab.proc
      | succ i => exact ih i

/-- **Nobody can forge a wait.** Let threads run saves, pauses, calls to make records ready,
look-ups, acceptances, poll cycles and verifications, mingled in any way, with any faults and while
time passes. If instead the events and waits handed over carry other things in the fields of a
wait, then at every step of the run the stores are the same, the mailboxes are alike, and the same
threads are done, with the same outcome. -/
theorem forgery_without_effect (x : Exposure) (s : State) {dealings forged : List Dealing}
    (h : List.Forall₂ Alike dealings forged) (schedule : List Choice) :
    let w := (pool s dealings).run (Proc.advance x) schedule
    let v := (pool s forged).run (Proc.advance x) schedule
    v.state.events = w.state.events ∧ v.state.scenarios = w.state.scenarios
      ∧ (∀ id, (w.state.mailboxes id).Alike (v.state.mailboxes id))
      ∧ ∀ (i : Nat) (report : Report),
        v.threads[i]? = some (.done report) ↔ w.threads[i]? = some (.done report) := by
  intro w v
  have hrun : w.Alike v := (pool_alike s h).run x schedule
  refine ⟨hrun.state.events_eq.symm, hrun.state.scenarios_eq.symm, hrun.state.mailboxes, ?_⟩
  intro i report
  constructor
  · intro hdone
    obtain ⟨p, hp, hpq⟩ := hrun.exists_left hdone
    rw [hp, hpq.done_eq]
  · intro hdone
    obtain ⟨q, hq, hpq⟩ := hrun.exists_right hdone
    rw [hq, hpq.eq_done]

/-- A wait for a shipment, the shipment, and a poll cycle, with records as adapters make them. -/
def shipment : List Dealing :=
  [.call (.markPaused (.placeholder "ORD1::SHIPPED" "ORD1" (some "SHIPPED") default)),
    .accept ⟨none⟩ (.observed "ORD1" "SHIPPED" .null default), .poll ⟨"x", ⟨none⟩, 0⟩]

/-- The same, with a wait that claims to be ready and a shipment that claims to be a wait. Neither
is believed. -/
def forgedShipment : List Dealing :=
  [.call (.markPaused { Record.placeholder "ORD1::SHIPPED" "ORD1" (some "SHIPPED") default with
      ready := true, retries := 9 }),
    .accept ⟨none⟩ { Record.observed "ORD1" "SHIPPED" .null default with
      paused := true, lastPaused := some default },
    .poll ⟨"x", ⟨none⟩, 0⟩]

theorem forged_shipment_resumes : List.Forall₂ Alike shipment forgedShipment
    ∧ ∃ schedule threads,
      ((pool (.initial fun _ => ⟨0, 1, fun _ => 0⟩) forgedShipment).run
        (Proc.advance .all) schedule).threads = threads
      ∧ threads[1]? = some (.done (.outcome .resumeReady))
      ∧ threads[2]? = some (.done (.tally { Tally.zero with paused := 1, skipped := 1 })) := by
  have halike : List.Forall₂ Alike shipment forgedShipment :=
    .cons (.markPaused rfl) (.cons (.accept _ rfl) (.cons (.same _) .nil))
  let schedule : List Choice :=
    .step 0 none :: .wait 1000 :: List.replicate 4 (.step 1 none) ++ [.step 2 none]
  have hhonest : ((pool (.initial fun _ => ⟨0, 1, fun _ => 0⟩) shipment).run
        (Proc.advance .all) schedule).threads[1]? = some (.done (.outcome .resumeReady))
      ∧ ((pool (.initial fun _ => ⟨0, 1, fun _ => 0⟩) shipment).run
        (Proc.advance .all) schedule).threads[2]?
          = some (.done (.tally { Tally.zero with paused := 1, skipped := 1 })) := ⟨by rfl, by rfl⟩
  obtain ⟨-, -, -, hreports⟩ := forgery_without_effect .all
    (.initial fun _ => ⟨0, 1, fun _ => 0⟩) halike schedule
  exact ⟨halike, schedule, _, rfl, (hreports 1 _).mpr hhonest.1, (hreports 2 _).mpr hhonest.2⟩

end Dealing

end Rendezvous
