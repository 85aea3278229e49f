import Rendezvous.Proofs.Chronicle
import Rendezvous.Proofs.Sweeping

/-!
# A step that has passed stays passed

Once a verification has found its event, the step is skipped from then on with what it captured of
that event: whatever it is asked for, however often, and whatever else is done meanwhile, as long as
nobody marks the step or clears its scenario (`ready_once_skipped_ever`). This is so while calls on
what is known about scenarios are answered; calls on the record store may fail.

`Operation.Leaves` says what the operations make of the scenario store, and all else follows from
it.
-/

namespace Rendezvous

open Proc

/-- Calls on the record store may fail, and no others, so what is known about scenarios can always
be read. -/
def Exposure.records : Exposure := ⟨true, false⟩

/-! ## Operations -/

/-- What may be asked for. A verification that waits comes in two halves, and what happens while it
waits comes in between. -/
inductive Operation
  | request (r : Request)
  | accept (g : Engine) (e : Record)
  | wake (g : Engine) (r : Record)
  | poll (p : Poller)
  | change (c : Progress.Change)
  | verify (q : Question)
  | start (v : Verifier) (q : Question)
  | finish (q : Question) (timeout : Nat) (how : Wakeup)

def Operation.proc : Operation → Proc Unit
  | .request r => do let _ ← Proc.request r
  | .accept g e => do let _ ← g.accept e
  | .wake g r => do let _ ← g.wake r
  | .poll p => do let _ ← p.sweep
  | .change c => c.proc
  | .verify q => do let _ ← Verifier.verify q
  | .start v q => do let _ ← v.start q
  | .finish q timeout how => do let _ ← Verifier.finish q timeout how

/-- The request is a call by which what is kept under `key` is replaced or forgotten from
outside. -/
def Request.disturbs (key : String) : Request → Bool
  | .scenarios (.save st) => st.key = key
  | .scenarios (.delete k) => k = key
  | .scenarios .clear => true
  | _ => false

/-- The operation marks the step on purpose, or replaces or forgets what is kept under `key`.
Verifications do not count. -/
def Operation.disturbs (key step : String) : Operation → Bool
  | .request r => r.disturbs key
  | .change c => c.clears key || (c.marks? key step).isSome
  | _ => false

/-! ## What operations make of the scenario store -/

theorem Proc.leads_discard {α : Type} {x : Exposure} {p : Proc α} {s : State} {post : State → Prop}
    (h : Leads (State.reply x) (fun _ t => post t) p s) :
    Leads (State.reply x) (fun _ t => post t) (do let _ ← p) s :=
  leads_bind (h.mono fun _ _ ht => leads_done.mpr ht)

namespace Engine

variable {x : Exposure} {g : Engine} {e r : Record} {s t : State}

theorem Accepted.scenarios_eq {o : Outcome} (h : Accepted x g e s o t) :
    t.scenarios = s.scenarios := by
  cases h with
  | ignored => rfl
  | @settled s₁ _ _ _ hpersisted hsettled =>
      have hsaved : s₁.scenarios = s.scenarios := by cases hpersisted <;> rfl
      rw [← hsaved]
      cases hsettled with
      | resumeReady =>
          unfold State.resumed
          split <;> rfl
      | _ => rfl

theorem Woken.scenarios_eq {n : Nat} (h : Woken g r s n t) : t.scenarios = s.scenarios := by
  cases h <;> rfl

end Engine

theorem Poller.Visited.scenarios_eq {x : Exposure} {p : Poller} {acc acc' : Tally} {wait : Record}
    {s t : State} (h : Visited x p acc wait s acc' t) : t.scenarios = s.scenarios := by
  cases h with
  | ready _ h => exact h.scenarios_eq
  | lookupFailed | nothing => rfl
  | delegated _ _ h => exact h.scenarios_eq

/-- The scenario store after an operation: it is as it was, or the operation is a change and was
made, or a verification of a step that had not passed and has marked it. -/
inductive Operation.Leaves (s : State) : Operation → ScenarioStore → Prop
  | spared (op) : Leaves s op s.scenarios
  | saved (st) : Leaves s (.request (.scenarios (.save st))) (s.scenarios.save st)
  | deleted (key) : Leaves s (.request (.scenarios (.delete key))) (s.scenarios.delete key)
  | cleared : Leaves s (.request (.scenarios .clear)) .empty
  | changed (c) : Leaves s (.change c) (c.made s).scenarios
  | marked {op q} (status data) : s.knowsPassed q = false →
      Leaves s op (s.concluded q status data).scenarios

namespace Verifier

variable {q : Question} {s t : State} {l : List Bool} {v : Except Fault Verification}

theorem Went.leaves (h : Went .records q s l v t) (op : Operation) :
    op.Leaves s t.scenarios := by
  cases h with
  | skipped => exact .spared op
  | skippedBlind _ hx => cases hx
  | asked hnot hasked =>
      cases hasked with
      | lookupFailed | pauseFailed => exact .spared op
      | ready _ hmark =>
          cases hmark with
          | made => exact .marked _ _ hnot
          | failed hx => cases hx
      | notReady _ hmark =>
          cases hmark with
          | made => exact .marked .pending none hnot
          | failed hx => cases hx
  | askedBlind hx => cases hx

end Verifier

namespace Operation

theorem leaves_reply (r : Request) (fault : Option Fault) (s : State) :
    (Operation.request r).Leaves s (State.reply .records fault r s).2.scenarios := by
  cases r with
  | events c =>
      rcases State.reply_events .records fault c s with he | ⟨-, f, he⟩
      · rw [he]
        cases c <;> exact .spared _
      · rw [he]
        exact .spared _
  | scenarios c =>
      rcases State.reply_scenarios .records fault c s with he | ⟨hx, -⟩
      · rw [he]
        cases c with
        | find key => exact .spared _
        | save st => exact .saved st
        | delete key => exact .deleted key
        | clear => exact .cleared
      · cases hx
  | _ => exact .spared _

theorem leads_leaves (op : Operation) (s : State) :
    Leads (State.reply .records) (fun _ t => op.Leaves s t.scenarios) op.proc s := by
  have spare : ∀ {op : Operation} {t : State}, t.scenarios = s.scenarios →
      op.Leaves s t.scenarios := fun h => h ▸ .spared _
  cases op with
  | request r =>
      exact leads_discard (leads_request fun fault => leads_done.mpr (leaves_reply r fault s))
  | accept g e =>
      exact leads_discard ((Engine.leads_accept .records g e s).mono fun _ _ h =>
        spare h.scenarios_eq)
  | wake g r =>
      exact leads_discard ((Engine.leads_wake .records g r s).mono fun _ _ h =>
        spare h.scenarios_eq)
  | poll p =>
      refine leads_discard ((Poller.leads_sweep (p := p)
        (J := fun _ _ t => t.scenarios = s.scenarios)
        (fun _ _ _ _ _ _ hs hv => hv.scenarios_eq.trans hs) rfl).mono ?_)
      rintro acc t (h | ⟨-, -, rfl⟩)
      · exact spare h
      · exact spare rfl
  | change c =>
      refine (c.tells_proc .records s).leads.mono ?_
      rintro - t ⟨l, hmade | hx⟩
      · exact .changed c
      · cases hx
  | verify q =>
      exact leads_discard ((Verifier.tells_verify .records q s).leads.mono
        fun _ _ ⟨_, h⟩ => h.leaves _)
  | start v q =>
      refine leads_discard ((Verifier.tells_start .records v q s).leads.mono ?_)
      rintro stage t ⟨l, result, u, hwent, hentered⟩
      rw [hentered.scenarios_eq]
      exact hwent.leaves _
  | finish q timeout how =>
      refine leads_discard ((Verifier.tells_finish .records q timeout how s).leads.mono ?_)
      rintro result t ⟨l, h⟩
      split at h
      · exact h.leaves _
      · exact spare (congrArg _ h.2.2)

end Operation

/-! ## What operations keep -/

namespace State

variable {s : State} {key step : String} {data : Option Capture}

theorem passed_made (h : s.scenarios.Passed key step data) (hs : s.scenarios.Keyed)
    (c : Progress.Change) (hclears : c.clears key = false) (hmarks : c.marks? key step = none) :
    (c.made s).scenarios.Passed key step data := by
  cases c with
  | mark sc p status d =>
      refine passed_marked h hs (fun hne => ?_) status d
      rw [Progress.Change.marks?, if_pos hne] at hmarks
      cases hmarks
  | setStatus sc status => exact h.update hs (fun _ => rfl) fun _ _ => ⟨rfl, rfl⟩
  | clear sc => exact h.delete (Ne.symm (of_decide_eq_false hclears))
  | clearAll => cases hclears

theorem keyed_made (hs : s.scenarios.Keyed) (c : Progress.Change) :
    (c.made s).scenarios.Keyed := by
  cases c with
  | mark | setStatus => exact hs.save _
  | clear sc => exact hs.delete _
  | clearAll => exact ScenarioStore.keyed_empty

end State

namespace Operation.Leaves

variable {s : State} {op : Operation} {w : ScenarioStore} {key step : String}
  {data : Option Capture}

theorem keyed (h : op.Leaves s w) (hs : s.scenarios.Keyed) : w.Keyed := by
  cases h with
  | spared => exact hs
  | saved st => exact hs.save st
  | deleted k => exact hs.delete k
  | cleared => exact ScenarioStore.keyed_empty
  | changed c => exact State.keyed_made hs c
  | marked => exact hs.save _

theorem passed (h : op.Leaves s w) (hs : s.scenarios.Keyed)
    (hop : op.disturbs key step = false) (hpassed : s.scenarios.Passed key step data) :
    w.Passed key step data := by
  cases h with
  | spared => exact hpassed
  | saved st => exact hpassed.save (of_decide_eq_false hop)
  | deleted k => exact hpassed.delete (of_decide_eq_false hop)
  | cleared => cases hop
  | changed c =>
      obtain ⟨hclears, hmarks⟩ := Bool.or_eq_false_iff.mp hop
      exact State.passed_made hpassed hs c hclears (by simpa using hmarks)
  | @marked _ q status d hnot =>
      refine State.passed_marked hpassed hs ?_ status d
      rintro ⟨rfl, rfl⟩
      rw [State.knowsPassed_of_passed hpassed] at hnot
      cases hnot

end Operation.Leaves

/-! ## Runs -/

/-- One thing after the other: an operation, any of whose calls on the record store may fail, the
passing of time, or anything that becomes of a mailbox. -/
inductive Turn
  | act (op : Operation) (faults : Nat → Option Fault)
  | wait (ms : Nat)
  | mailbox (id : MailboxId) (a : Mailbox)

def Turn.disturbs (key step : String) : Turn → Bool
  | .act op _ => op.disturbs key step
  | _ => false

namespace State

def take (s : State) : Turn → State
  | .act op faults => (runFaulty .records faults op.proc s).2
  | .wait ms => s.wait ms
  | .mailbox id a => s.setMailbox id a

def takeAll (s : State) (turns : List Turn) : State := turns.foldl take s

variable {key step : String} {data : Option Capture}

theorem keyed_take {s : State} (hs : s.scenarios.Keyed) :
    ∀ t : Turn, (s.take t).scenarios.Keyed
  | .act op faults => ((op.leads_leaves s).runFaulty faults).keyed hs
  | .wait _ | .mailbox _ _ => hs

theorem passed_take {s : State} (hs : s.scenarios.Keyed)
    (hpassed : s.scenarios.Passed key step data) :
    ∀ t : Turn, t.disturbs key step = false → (s.take t).scenarios.Passed key step data
  | .act op faults, h => ((op.leads_leaves s).runFaulty faults).passed hs h hpassed
  | .wait _, _ | .mailbox _ _, _ => hpassed

theorem keyed_takeAll : ∀ (turns : List Turn) {s : State}, s.scenarios.Keyed →
    (s.takeAll turns).scenarios.Keyed
  | [], _, hs => hs
  | t :: turns, _, hs => keyed_takeAll turns (keyed_take hs t)

theorem passed_takeAll : ∀ (turns : List Turn) {s : State}, s.scenarios.Keyed →
    s.scenarios.Passed key step data → (∀ t ∈ turns, t.disturbs key step = false) →
    (s.takeAll turns).scenarios.Passed key step data
  | [], _, _, hpassed, _ => hpassed
  | t :: turns, _, hs, hpassed, h =>
      passed_takeAll turns (keyed_take hs t)
        (passed_take hs hpassed t (h t List.mem_cons_self))
        fun u hu => h u (List.mem_cons_of_mem t hu)

end State

/-! ## Verifications of the step -/

namespace Verifier

variable {q : Question} {s t : State} {l : List Bool} {v : Except Fault Verification}

/-- A verification that finds its event has recorded it. -/
theorem Went.passed_of_ready {e : Record} (h : Went .records q s l (.ok (.ready e)) t)
    (hs : s.scenarios.Keyed) :
    t.scenarios.Passed q.site.scenario.key q.site.step (some (.ofEvent e)) := by
  cases h with
  | asked _ hasked =>
      cases hasked with
      | ready _ hmark =>
          cases hmark with
          | made => exact (State.passed_marked_self_iff hs).mpr ⟨rfl, rfl⟩
          | failed hx => cases hx
  | askedBlind hx => cases hx

/-- A verification of a step that has passed skips it, and changes nothing, as long as what is known
of it can be read. -/
theorem Went.skips {data : Option Capture} (h : Went .records q s l v t)
    (hpassed : s.scenarios.Passed q.site.scenario.key q.site.step data) :
    v = .ok (.skipped (data.getD .empty)) ∧ t = s := by
  have hknows := State.knowsPassed_of_passed hpassed
  cases h with
  | skipped =>
      obtain ⟨st, hst, -, rfl⟩ := hpassed
      rw [hst]
      exact ⟨rfl, rfl⟩
  | skippedBlind _ hx | askedBlind hx => cases hx
  | asked hnot => cases hknows.symm.trans hnot

theorem runFaulty_verify {data : Option Capture}
    (hpassed : s.scenarios.Passed q.site.scenario.key q.site.step data)
    (faults : Nat → Option Fault) :
    runFaulty .records faults (verify q) s = (.ok (.skipped (data.getD .empty)), s) := by
  obtain ⟨hresult, hstate⟩ := ((tells_verify .records q s).runFaulty faults).skips hpassed
  exact Prod.ext hresult hstate

theorem runFaulty_start {data : Option Capture} (v : Verifier)
    (hpassed : s.scenarios.Passed q.site.scenario.key q.site.step data)
    (faults : Nat → Option Fault) : runFaulty .records faults (v.start q) s
      = (.finished (.ok (.skipped (data.getD .empty))), s) := by
  have h : Leads (State.reply .records) (fun stage t =>
      stage = .finished (.ok (.skipped (data.getD .empty))) ∧ t = s) (v.start q) s := by
    refine (tells_start .records v q s).leads.mono ?_
    rintro stage t ⟨l, result, u, hwent, hentered⟩
    obtain ⟨rfl, rfl⟩ := hwent.skips hpassed
    cases hentered with
    | finished => exact ⟨rfl, rfl⟩
    | waiting hresult => cases hresult
  exact Prod.ext (h.runFaulty faults).1 (h.runFaulty faults).2

end Verifier

/-- What a step captures of an event, by name. Other names have nothing captured under them. -/
def Record.captured? (e : Record) (name : String) : Option String :=
  if name = "orderId" then some e.order
  else if name = "canonicalKey" then some e.key
  else if name = "eventType" then e.eventType
  else if name = "eventTimestamp" then e.observedAt.map (·.offsetText)
  else none

theorem Capture.get?_ofEvent (e : Record) (name : String) :
    (Capture.ofEvent e).get? name = e.captured? name := by
  unfold Record.captured? ofEvent Table.ofList
  cases e.eventType <;> cases e.observedAt <;> simp [Table.get?_insert] <;> grind

/-- **A step that has passed is skipped.** After any run, let a verification find its event `e`.
However the run goes on, as long as nobody marks the step or clears its scenario, every verification
of the step skips it with what was captured of `e`, and so does one that would wait: both are over
at once, and nothing is changed. They may ask for another order or another type, from another
line. -/
theorem ready_once_skipped_ever (retention : MailboxId → Retention) (before : List Turn)
    {q : Question} {e : Record} {faults : Nat → Option Fault}
    (hready : (runFaulty .records faults (Verifier.verify q)
      ((State.initial retention).takeAll before)).1 = .ok (.ready e))
    (after : List Turn)
    (hafter : ∀ t ∈ after, t.disturbs q.site.scenario.key q.site.step = false) :
    let s := (runFaulty .records faults (Verifier.verify q)
      ((State.initial retention).takeAll before)).2.takeAll after
    (∀ name, (Capture.ofEvent e).get? name = e.captured? name)
    ∧ ∀ q' : Question, q'.site.scenario.key = q.site.scenario.key → q'.site.step = q.site.step →
      ∀ faults, runFaulty .records faults (Verifier.verify q') s
          = (.ok (.skipped (.ofEvent e)), s)
        ∧ ∀ v : Verifier, runFaulty .records faults (v.start q') s
          = (.finished (.ok (.skipped (.ofEvent e))), s) := by
  intro s
  refine ⟨Capture.get?_ofEvent e, fun q' hkey hstep faults' => ?_⟩
  have hkeyed : ((State.initial retention).takeAll before).scenarios.Keyed :=
    State.keyed_takeAll before ScenarioStore.keyed_empty
  have hwent := (Verifier.tells_verify .records q
    ((State.initial retention).takeAll before)).runFaulty faults
  have hverified := hwent.leaves (.verify q)
  rw [hready] at hwent
  have hpassed : s.scenarios.Passed q.site.scenario.key q.site.step (some (.ofEvent e)) :=
    State.passed_takeAll after (hverified.keyed hkeyed) (hwent.passed_of_ready hkeyed) hafter
  rw [← hkey, ← hstep] at hpassed
  exact ⟨Verifier.runFaulty_verify hpassed faults',
    fun v => Verifier.runFaulty_start v hpassed faults'⟩

def shipmentTaken : List Turn :=
  [.act (.accept ⟨none⟩ (.observed "ORD1" "SHIPPED" .null default)) fun _ => none]

def shipmentStep (line step eventType : String) : Question :=
  ⟨⟨⟨"Shipping", "", none⟩, "shipping.feature", line, step⟩, "ORD1", eventType⟩

/-- Another step of the scenario fails, and then waits for a cancellation, which cannot be looked up
at first. -/
def cancellationSought : List Turn :=
  [.act (.change (.mark ⟨"Shipping", "", none⟩ "cancel" .failed none)) fun _ => none, .wait 20,
    .act (.verify (shipmentStep "12" "cancel" "CANCELLED")) fun n =>
      if n = 1 then some ⟨"connection reset"⟩ else none,
    .act (.start ⟨some 0⟩ (shipmentStep "12" "cancel" "CANCELLED")) fun _ => none,
    .act (.change (.setStatus ⟨"Shipping", "", none⟩ .paused)) fun _ => none]

theorem shipment_skipped :
    let before := (State.initial fun _ => ⟨5000, 1, fun _ => 0⟩).takeAll shipmentTaken
    let found := runFaulty .records (fun _ => none)
      (Verifier.verify (shipmentStep "7" "ship" "SHIPPED")) before
    let s := found.2.takeAll cancellationSought
    ∃ e, e.key = "ORD1::SHIPPED" ∧ found.1 = .ok (.ready e) ∧ ∀ faults,
      runFaulty .records faults (Verifier.verify (shipmentStep "9" "ship" "RETURNED")) s
        = (.ok (.skipped (.ofEvent e)), s) := by
  intro before found s
  have hready : ∃ e, e.key = "ORD1::SHIPPED" ∧ found.1 = .ok (.ready e) := ⟨_, rfl, rfl⟩
  obtain ⟨e, hkey, hready⟩ := hready
  have h := ready_once_skipped_ever (fun _ => ⟨5000, 1, fun _ => 0⟩) shipmentTaken hready
    cancellationSought (by decide)
  exact ⟨e, hkey, hready,
    fun faults => (h.2 (shipmentStep "9" "ship" "RETURNED") rfl rfl faults).1⟩

end Rendezvous
