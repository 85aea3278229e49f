import Rendezvous.Proofs.Acceptance
import Rendezvous.Proofs.Forgery

/-!
# Keys are independent

What is done about one key goes by the record under that key, by the clock and by the faults it
meets, and it touches no other record. So the operations on a key come to the same with or without
those on other keys in between (`keys_apart`): the record is the same in the end, and so is what
each of the operations reports. Two neighbouring operations on different keys can change places.

An accepted event is the long case. It makes up to three calls on the store, all under its own key
(`Proc.Local`). When it has made a wait ready it also completes a mailbox, which other keys share;
nothing that the mailbox answers has a say in the outcome.
-/

namespace Rendezvous

open Proc

/-! ## Requests about one key -/

/-- The request is about the record under `key`, or it logs. Queries about several records concern
no key. -/
def Request.Concerns (key : String) : Request → Prop
  | .events (.save e) | .events (.markPaused e) => e.key = key
  | .events (.find k) | .events (.markReady k) | .events (.isReady k) => k = key
  | .note _ => True
  | _ => False

namespace State

/-- The two states agree on the record under `key` and on the clock, and on nothing else that
matters. -/
structure Concur (key : String) (s t : State) : Prop where
  record : s.events.find? key = t.events.find? key
  clock : s.clock = t.clock

variable {key k : String} {s t : State} {r : Request}

/-- A request is answered by the record under the key it is about, and by the clock. -/
theorem Concur.reply (h : s.Concur key t) (hr : r.Concerns key) (x : Exposure)
    (fault : Option Fault) : (State.reply x fault r s).1 = (State.reply x fault r t).1
      ∧ (State.reply x fault r s).2.Concur key (State.reply x fault r t).2 := by
  cases r with
  | events c =>
      simp only [State.reply]
      cases fault.filter fun _ => x.events with
      | some f => exact ⟨rfl, h⟩
      | none =>
          cases c with
          | save e =>
              refine ⟨rfl, ?_, h.clock⟩
              change (s.events.save e).find? key = (t.events.save e).find? key
              rw [RecordStore.find?_save, RecordStore.find?_save, h.record]
          | markPaused context =>
              have hnow : s.now = t.now := congrArg (Instant.ofMillis origin) h.clock
              refine ⟨rfl, ?_, h.clock⟩
              change (s.events.markPaused context s.now).find? key
                = (t.events.markPaused context t.now).find? key
              rw [RecordStore.find?_markPaused, RecordStore.find?_markPaused, h.record, hnow]
          | markReady k =>
              obtain rfl : k = key := hr
              refine ⟨congrArg Except.ok ?_, ?_, h.clock⟩
              · rw [Bool.eq_iff_iff]
                change (s.events.markReady k).1 = true ↔ (t.events.markReady k).1 = true
                rw [RecordStore.markReady_fst, RecordStore.markReady_fst, h.record]
              · change (s.events.markReady k).2.find? k = (t.events.markReady k).2.find? k
                rw [RecordStore.find?_markReady, RecordStore.find?_markReady, h.record]
          | find k =>
              obtain rfl : k = key := hr
              exact ⟨congrArg Except.ok h.record, h⟩
          | isReady k =>
              obtain rfl : k = key := hr
              refine ⟨congrArg Except.ok ?_, h⟩
              change (s.events.find? k).any (·.ready) = (t.events.find? k).any (·.ready)
              rw [h.record]
          | _ => exact hr.elim
  | note => exact ⟨rfl, h⟩
  | _ => exact hr.elim

/-- A request about one key leaves the records under all others. -/
theorem find?_reply_of_ne (hr : r.Concerns k) (hne : key ≠ k) (x : Exposure)
    (fault : Option Fault) (s : State) :
    (State.reply x fault r s).2.events.find? key = s.events.find? key := by
  have hw := written_reply x fault r s
  generalize (State.reply x fault r s).2.events = after at hw ⊢
  cases hw with
  | spared => rfl
  | saved e =>
      obtain rfl : e.key = k := hr
      rw [RecordStore.find?_save, if_neg hne]
  | paused context =>
      obtain rfl : context.key = k := hr
      rw [RecordStore.find?_markPaused, if_neg hne]
  | ready j =>
      obtain rfl : j = k := hr
      rw [RecordStore.find?_markReady, if_neg hne]

theorem events_reply_of_spares (hr : r.SparesRecords) (x : Exposure) (fault : Option Fault)
    (s : State) : (State.reply x fault r s).2.events = s.events := by
  have hw := written_reply x fault r s
  generalize (State.reply x fault r s).2.events = after at hw ⊢
  cases hw with
  | spared => rfl
  | saved | paused | ready => exact hr.elim

end State

/-! ## Procedures about one key -/

namespace Proc

variable {α β : Type} {key k : String} {p : Proc α}

/-- However its requests are answered, the procedure ends with `a`; its result is settled. -/
def Returns (a : α) : Proc α → Prop
  | .done b => b = a
  | .ask _ next => ∀ x, Returns a (next x)

theorem returns_done (a : α) : (Proc.done a).Returns a := Eq.refl a

theorem Returns.map (f : α → β) {a : α} : ∀ {p : Proc α}, p.Returns a →
    (p >>= fun a => .done (f a)).Returns (f a)
  | .done _, h => congrArg f h
  | .ask _ _, h => fun x => (h x).map f

theorem returns_bind {f : α → Proc β} {b : β} (hf : ∀ a, (f a).Returns b) :
    ∀ p : Proc α, (p >>= f).Returns b
  | .done a => hf a
  | .ask _ next => fun x => returns_bind hf (next x)

/-- The procedure makes requests about `key`. Once its result is settled it may ask for other things
as well, as long as they leave the records alone. -/
inductive Local (key : String) : Proc α → Prop
  | ask {r : Request} {next : r.Answer → Proc α} (hr : r.Concerns key)
      (hn : ∀ x, Local key (next x)) : Local key (.ask r next)
  | settled {p : Proc α} (a : α) (ha : p.Returns a) (hp : p.Asks Request.SparesRecords) :
      Local key p

theorem local_done (a : α) : (Proc.done a).Local key := .settled a rfl trivial

theorem local_bind {f : α → Proc β} (hf : ∀ a, (f a).Local key) :
    ∀ {p : Proc α}, p.Asks (Request.Concerns key) → (p >>= f).Local key
  | .done a, _ => hf a
  | .ask _ _, ⟨hr, hn⟩ => .ask hr fun x => local_bind hf (hn x)

theorem Local.map (f : α → β) (h : p.Local key) : (p >>= fun a => .done (f a)).Local key := by
  induction h with
  | ask hr _ ih => exact .ask hr ih
  | settled a ha hp => exact .settled (f a) (ha.map f) (asks_bind (fun _ => asks_pure _) hp)

variable {x : Exposure} {s t : State}

theorem Returns.runFaulty {a : α} : ∀ {p : Proc α}, p.Returns a → ∀ (faults : Nat → Option Fault)
    (s : State), (runFaulty x faults p s).1 = a
  | .done _, h, _, _ => h
  | .ask _ _, h, faults, _ => (h _).runFaulty (fun n => faults (n + 1)) _

theorem Asks.events_runFaulty : ∀ {p : Proc α}, p.Asks Request.SparesRecords →
    ∀ (faults : Nat → Option Fault) (s : State), (runFaulty x faults p s).2.events = s.events
  | .done _, _, _, _ => rfl
  | .ask _ _, ⟨hr, hn⟩, faults, s =>
      ((hn _).events_runFaulty (fun n => faults (n + 1)) _).trans
        (State.events_reply_of_spares hr x (faults 0) s)

/-- With the same faults it comes to the same wherever the record and the clock are the same,
whatever is kept under other keys. -/
theorem Local.runFaulty (h : p.Local key) (hst : s.Concur key t) (faults : Nat → Option Fault) :
    (runFaulty x faults p s).1 = (runFaulty x faults p t).1
      ∧ (runFaulty x faults p s).2.events.find? key
        = (runFaulty x faults p t).2.events.find? key := by
  induction h generalizing s t faults with
  | @ask r next hr _ ih =>
      obtain ⟨hanswer, hconcur⟩ := hst.reply hr x (faults 0)
      have hnext := ih (State.reply x (faults 0) r s).1 hconcur fun n => faults (n + 1)
      change (Proc.runFaulty x _ (next (State.reply x (faults 0) r s).1) _).1
          = (Proc.runFaulty x _ (next (State.reply x (faults 0) r t).1) _).1
        ∧ (Proc.runFaulty x _ (next (State.reply x (faults 0) r s).1) _).2.events.find? key
          = (Proc.runFaulty x _ (next (State.reply x (faults 0) r t).1) _).2.events.find? key
      rw [← hanswer]
      exact hnext
  | settled a ha hp =>
      rw [ha.runFaulty, ha.runFaulty, hp.events_runFaulty, hp.events_runFaulty]
      exact ⟨rfl, hst.record⟩

/-- It leaves the records under all other keys. -/
theorem Local.find?_of_ne (h : p.Local k) (hne : key ≠ k) (faults : Nat → Option Fault)
    (s : State) : (Proc.runFaulty x faults p s).2.events.find? key = s.events.find? key := by
  induction h generalizing s faults with
  | @ask r next hr _ ih =>
      exact (ih _ (fun n => faults (n + 1)) _).trans
        (State.find?_reply_of_ne hr hne x (faults 0) s)
  | settled a _ hp => rw [hp.events_runFaulty]

end Proc

/-! ## Accepting an event -/

namespace Engine

theorem asks_persist (e : Record) : (persist e).Asks (Request.Concerns e.key) :=
  ⟨rfl, fun answer => by
    cases answer with
    | ok => trivial
    | error f => exact ⟨trivial, fun _ => trivial⟩⟩

theorem local_conclude (g : Engine) (e : Record) :
    ∀ answer, (g.conclude e answer).Local e.key
  | .ok false | .error _ => .ask trivial fun _ => local_done _
  | .ok true => by
      refine .settled .resumeReady (fun _ => ?_) (g.asks_conclude e (.ok true))
      cases g.mailbox with
      | none => exact returns_done _
      | some mailbox => exact returns_bind (fun _ => returns_done _) _

theorem local_resume (g : Engine) (e current : Record) : (g.resume e current).Local e.key := by
  rcases g.resume_cases e current with ⟨entry, o, -, heq, -⟩ | ⟨-, -, -, heq⟩
  · rw [heq]
    exact .ask trivial fun _ => local_done o
  · rw [heq]
    exact .ask rfl fun answer => g.local_conclude e answer

theorem local_settle (g : Engine) (e : Record) : (g.settle e).Local e.key := by
  refine .ask rfl fun answer => ?_
  match answer with
  | .error f => exact .ask trivial fun _ => local_done _
  | .ok none => exact .ask trivial fun _ => local_done _
  | .ok (some current) => exact g.local_resume e current

theorem local_accept (g : Engine) (e : Record) : (g.accept e).Local e.key := by
  cases hkey : Text.blank e.key with
  | true =>
      rw [accept_of_blank g hkey]
      exact .ask trivial fun _ => local_done _
  | false =>
      rw [accept_eq g hkey]
      exact local_bind (fun _ => g.local_settle e) (asks_persist e)

end Engine

/-! ## Operations -/

/-- What can be done about one key: the writes of a store, and taking an event in. -/
inductive KeyOp
  | save (e : Record)
  | pause (context : Record)
  | ready (key : String)
  | accept (g : Engine) (e : Record)

namespace KeyOp

def key : KeyOp → String
  | .save e | .pause e | .accept _ e => e.key
  | .ready key => key

def dealing : KeyOp → Dealing
  | .save e => .call (.save e)
  | .pause context => .call (.markPaused context)
  | .ready key => .call (.markReady key)
  | .accept g e => .accept g e

theorem local_dealing : ∀ op : KeyOp, op.dealing.proc.Local op.key
  | .save _ | .pause _ | .ready _ => .ask rfl fun _ => local_done _
  | .accept g e => (g.local_accept e).map Report.outcome

end KeyOp

/-- An operation when it is carried out: what the clock reads, and what befalls its requests. Both
are its own, so that operations can be put in another order. -/
structure TimedOp where
  op : KeyOp
  clock : Nat
  faults : Nat → Option Fault

namespace TimedOp

abbrev key (t : TimedOp) : String := t.op.key

def perform (t : TimedOp) (s : State) : Report × State :=
  runFaulty .all t.faults t.op.dealing.proc { s with clock := t.clock }

/-- The state after the operations, the first one first, each run to its end before the next. -/
def after (ts : List TimedOp) (s : State) : State := ts.foldl (fun s t => (t.perform s).2) s

/-- The operations with what they report, in their order. -/
def reports : List TimedOp → State → List (TimedOp × Report)
  | [], _ => []
  | t :: ts, s => (t, (t.perform s).1) :: reports ts (t.perform s).2

variable {key : String} {s s' : State} {t : TimedOp}

theorem perform_of_eq (hkey : t.key = key) (h : s.events.find? key = s'.events.find? key) :
    (t.perform s).1 = (t.perform s').1
      ∧ (t.perform s).2.events.find? key = (t.perform s').2.events.find? key := by
  subst hkey
  have hconcur : State.Concur t.key { s with clock := t.clock } { s' with clock := t.clock } :=
    ⟨h, rfl⟩
  exact t.op.local_dealing.runFaulty hconcur t.faults

theorem perform_of_ne (hkey : t.key ≠ key) (s : State) :
    (t.perform s).2.events.find? key = s.events.find? key :=
  t.op.local_dealing.find?_of_ne (Ne.symm hkey) t.faults _

/-- The operations on one key, in a run of many and alone, from states that agree on the key. Each
operation is either of the key and does the same in both, or of another and leaves the key. -/
theorem after_filter (ts : List TimedOp) (h : s.events.find? key = s'.events.find? key) :
    (after ts s).events.find? key
        = (after (ts.filter (·.key = key)) s').events.find? key
      ∧ (reports ts s).filter (·.1.key = key) = reports (ts.filter (·.key = key)) s' := by
  induction ts generalizing s s' with
  | nil => exact ⟨h, rfl⟩
  | cons t ts ih =>
      by_cases hkey : t.key = key
      · obtain ⟨hreport, hnext⟩ := perform_of_eq hkey h
        obtain ⟨hrecord, hreports⟩ := ih hnext
        rw [List.filter_cons_of_pos (by simpa using hkey)]
        refine ⟨hrecord, ?_⟩
        rw [reports, reports, List.filter_cons_of_pos (by simpa using hkey), hreport, hreports]
      · obtain ⟨hrecord, hreports⟩ := ih ((perform_of_ne hkey s).trans h)
        rw [List.filter_cons_of_neg (by simpa using hkey)]
        refine ⟨hrecord, ?_⟩
        rw [reports, List.filter_cons_of_neg (by simpa using hkey), hreports]

/-- **Keys are independent.** In every run of saves, pauses, calls to make records ready and
accepted events, whatever the clock reads and whichever calls fail: if all operations on other keys
are left out, the record under a key is the same in the end and what each operation on it reports
is the same. Two neighbouring operations on different keys may change places. -/
theorem keys_apart (ts : List TimedOp) (s : State) :
    (∀ key, (after ts s).events.find? key = (after (ts.filter (·.key = key)) s).events.find? key
      ∧ (reports ts s).filter (·.1.key = key) = reports (ts.filter (·.key = key)) s)
    ∧ ∀ before a b rest, ts = before ++ a :: b :: rest → a.key ≠ b.key →
      (after (before ++ b :: a :: rest) s).events = (after ts s).events := by
  refine ⟨fun key => after_filter ts rfl, ?_⟩
  rintro before a b rest rfl hne
  have hsame : ∀ key, (before ++ b :: a :: rest).filter (·.key = key)
      = (before ++ a :: b :: rest).filter (·.key = key) := by
    intro key
    by_cases ha : a.key = key
    · have hb : b.key ≠ key := fun hb => hne (ha.trans hb.symm)
      simp [List.filter_append, ha, hb]
    · by_cases hb : b.key = key <;> simp [List.filter_append, ha, hb]
  refine congrArg RecordStore.mk (Table.ext fun key => ?_)
  have hs : s.events.find? key = s.events.find? key := rfl
  have h := (after_filter (before ++ b :: a :: rest) hs).1
  rw [hsame] at h
  exact h.trans (after_filter _ rfl).1.symm

/-- A wait for a shipment, one for a payment, and the shipment, which cannot be saved. -/
def shipmentBesidePayment : List TimedOp :=
  [⟨.pause (.placeholder "ORD1::SHIPPED" "ORD1" (some "SHIPPED") default), 1000, fun _ => none⟩,
    ⟨.pause (.placeholder "ORD1::PAID" "ORD1" (some "PAID") default), 2000, fun _ => none⟩,
    ⟨.accept ⟨some 0⟩ (.observed "ORD1" "SHIPPED" .null default), 3000,
      fun n => if n = 0 then some ⟨"disk full"⟩ else none⟩]

/-- The wait for the shipment ends as if there were no other, and the one for the payment could as
well have begun after the shipment. -/
theorem shipment_apart_from_payment :
    let s := State.initial fun _ => ⟨0, 1, fun _ => 0⟩
    let paid := KeyOp.pause (.placeholder "ORD1::PAID" "ORD1" (some "PAID") default)
    ((reports shipmentBesidePayment s).filter (·.1.key = "ORD1::SHIPPED")).map (·.2)
        = [.written (.ok ()), .outcome .resumeReady]
      ∧ "ORD1::PAID" ≠ "ORD1::SHIPPED"
      ∧ (after (shipmentBesidePayment.eraseIdx 1 ++ [⟨paid, 2000, fun _ => none⟩]) s).events
        = (after shipmentBesidePayment s).events := by
  intro s paid
  obtain ⟨hkeys, hswap⟩ := keys_apart shipmentBesidePayment s
  have hne : "ORD1::PAID" ≠ "ORD1::SHIPPED" := by decide
  refine ⟨?_, hne, hswap [_] _ _ [] rfl hne⟩
  rw [(hkeys "ORD1::SHIPPED").2]
  rfl

end TimedOp

end Rendezvous
