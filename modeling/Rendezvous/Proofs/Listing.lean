import Rendezvous.Proofs.Lifecycle
import Rendezvous.Proofs.Separation
import Rendezvous.Proofs.Waking

/-!
# Waits are listed first come, first served

A wait takes its place in the list when it is paused for the first time. It does not lose it by
being paused again, saved over or made ready, and nothing that a saved record or a context carries
can bring it forward. So the list of all waits has each key that was ever paused once, in the order
of the first pauses (`paused_first_come`).

That is a statement about every order in which a store may hand out what it keeps, of which the
list of `RecordStore.paused` goes by one: sorting leaves only waits of the same time where they
were.
-/

namespace Rendezvous

open Proc

/-! ## Listing -/

namespace RecordStore

variable {s : RecordStore} {l : List Record}

theorem listPaused_perm (h : l.Perm s.records.values) : (listPaused l).Perm s.paused :=
  Sorting.sort_perm_sort _ (h.filter _)

theorem sorted_listPaused (l : List Record) :
    (listPaused l).Pairwise fun r q => Record.timeLe r.firstPaused q.firstPaused = true :=
  Sorting.sorted_sort _ (fun r q => Record.timeLe_total r.firstPaused q.firstPaused)
    (fun r q p => Record.timeLe_trans r.firstPaused q.firstPaused p.firstPaused) _

/-- The list has the waits of the store, each once, which were paused at `times`, in the order in
which they were first paused. -/
structure FirstCome (s : RecordStore) (times : String → List Instant) (listed : List Record) :
    Prop where
  kept : ∀ r ∈ listed, s.find? r.key = some r
  once : (listed.map (·.key)).Nodup
  complete : ∀ key, key ∈ listed.map (·.key) ↔ times key ≠ []
  ordered : listed.Pairwise fun r q => ∀ first second, (times r.key).head? = some first →
    (times q.key).head? = some second → ¬ second < first

/-- A list is first come first when all that is kept shows when it was paused. This holds in
whatever order the store hands out what it keeps. -/
theorem firstCome_listPaused {times : String → List Instant}
    (h : ∀ key, Record.Told key (times key) (s.find? key)) (hl : l.Perm s.records.values) :
    s.FirstCome times (listPaused l) := by
  have hbears : ∀ {key r}, s.find? key = some r → r.Bears key (times key) := by
    intro key r hr
    have hkey := h key
    rwa [hr] at hkey
  have hkeyed : s.Keyed := fun _ _ hr => (hbears hr).key_eq
  have hperm := listPaused_perm hl
  have hkept : ∀ r ∈ listPaused l, s.find? r.key = some r := by
    intro r hm
    obtain ⟨⟨key, hr⟩, -⟩ := mem_paused.mp (hperm.mem_iff.mp hm)
    rwa [hkeyed key r hr]
  refine ⟨hkept, (hperm.map _).nodup_iff.mpr (nodup_paused hkeyed), fun key => ?complete, ?ordered⟩
  case complete =>
    rw [(hperm.map _).mem_iff]
    constructor
    · intro hm
      obtain ⟨r, hr, rfl⟩ := List.mem_map.mp hm
      obtain ⟨⟨key, hfound⟩, hpaused⟩ := mem_paused.mp hr
      rw [hkeyed key r hfound]
      intro hnone
      simp [(hbears hfound).paused, hnone] at hpaused
    · intro hne
      cases hr : s.find? key with
      | none =>
          have hkey := h key
          rw [hr] at hkey
          exact absurd hkey hne
      | some r =>
          have hpaused : r.paused = true := by simpa [(hbears hr).paused] using hne
          exact List.mem_map.mpr ⟨r, mem_paused.mpr ⟨⟨key, hr⟩, hpaused⟩, hkeyed key r hr⟩
  case ordered =>
    refine (sorted_listPaused l).imp_of_mem fun {r q} hr hq hle first second hfirst hsecond => ?_
    rw [(hbears (hkept r hr)).firstPaused, (hbears (hkept q hq)).firstPaused, hfirst,
      hsecond] at hle
    exact of_decide_eq_true hle

end RecordStore

/-! ## Pauses in a run -/

namespace Record

variable {key : String} {times : List Instant} {s t : State}

/-- What a store shows of a key is handed on by a write that pauses no wait. -/
theorem Told.write (h : Told key times (s.events.find? key)) {w : RecordStore.Write}
    (hw : w.pausedAt? key = none) : Told key times ((s.events.write w).find? key) := by
  have hact := h.act w
  rwa [← RecordStore.find?_write, hw, Option.toList_none, List.append_nil] at hact

theorem Told.accept {x : Exposure} {g : Engine} {e : Record} {o : Outcome}
    (h : Told key times (s.events.find? key)) (ha : g.Accepted x e s o t) :
    Told key times (t.events.find? key) := by
  cases ha with
  | ignored => exact h
  | @settled s₁ _ _ _ hpersisted hsettled =>
      have hsaved : Told key times (s₁.events.find? key) := by
        cases hpersisted with
        | saved => exact h.write (w := .save e) rfl
        | failed => exact h
      rw [hsettled.events_eq]
      split
      · exact hsaved.write (w := .ready e.key) rfl
      · exact hsaved

end Record

/-- An operation that is no pause. -/
theorem KeyOp.leads_told {key : String} {times : List Instant} {s : State} {op : KeyOp}
    (hop : ∀ context, op ≠ .pause context) (h : Record.Told key times (s.events.find? key)) :
    Leads (State.reply .all) (fun _ t => Record.Told key times (t.events.find? key))
      op.dealing.proc s := by
  cases op with
  | save e =>
      exact leads_events (leads_done.mpr (h.write (w := .save e) rfl)) fun _ _ => leads_done.mpr h
  | ready k =>
      exact leads_events (leads_done.mpr (h.write (w := .ready k) rfl)) fun _ _ => leads_done.mpr h
  | accept g e =>
      refine leads_bind ((g.leads_accept .all e s).mono fun o t ha => ?_)
      exact leads_done.mpr (h.accept ha)
  | pause context => exact absurd rfl (hop context)

namespace TimedOp

open RecordStore (FirstCome listPaused)

/-- When the operation pauses the wait under `key`, which it does unless the call fails. Its clock
says when. -/
def pausedAt? (key : String) (t : TimedOp) : Option Instant :=
  match t.op with
  | .pause context =>
    if key = context.key ∧ t.faults 0 = none then some (.ofMillis State.origin t.clock) else none
  | _ => none

def pauses (key : String) (ts : List TimedOp) : List Instant := ts.filterMap (pausedAt? key)

/-- Every operation hands on what is shown of a key, and a pause adds its time. The first request of
a pause is the pause itself, and there is no other. -/
theorem told_perform {key : String} {times : List Instant} {s : State}
    (h : Record.Told key times (s.events.find? key)) (t : TimedOp) :
    Record.Told key (times ++ (t.pausedAt? key).toList) ((t.perform s).2.events.find? key) := by
  obtain ⟨op, clock, faults⟩ := t
  change Record.Told key _
    ((runFaulty .all faults op.dealing.proc { s with clock }).2.events.find? key)
  cases op with
  | pause context =>
      let now := Instant.ofMillis State.origin clock
      change Record.Told key
        (times ++ (if key = context.key ∧ faults 0 = none then some now else none).toList)
        ((State.reply .all (faults 0) (.events (.markPaused context))
          { s with clock }).2.events.find? key)
      cases faults 0 with
      | none =>
          have hact := h.act (.pause context now)
          rw [← RecordStore.find?_write] at hact
          simp only [and_true]
          exact hact
      | some f =>
          rw [if_neg (fun hnone => nomatch hnone.2), Option.toList_none, List.append_nil]
          exact h
  | _ =>
      change Record.Told key (times ++ []) _
      rw [List.append_nil]
      refine (KeyOp.leads_told (s := { s with clock }) ?_ h).runFaulty faults
      exact fun _ => nofun

theorem told_after {key : String} : ∀ (ts : List TimedOp) {times : List Instant} {s : State},
    Record.Told key times (s.events.find? key) →
      Record.Told key (times ++ pauses key ts) ((after ts s).events.find? key)
  | [], times, s, h => by
      rw [show pauses key [] = [] from rfl, List.append_nil]
      exact h
  | t :: ts, times, s, h => by
      have hrest := told_after ts (told_perform h t)
      have hpauses : pauses key (t :: ts) = (t.pausedAt? key).toList ++ pauses key ts := by
        rw [pauses, List.filterMap_cons]
        cases t.pausedAt? key <;> rfl
      rwa [hpauses, ← List.append_assoc]

/-- **Waits are listed completely, first come first.** After every run of saves, pauses, calls to
make records ready and accepted events, the list of waits has exactly one record for each key that
was ever paused and no other, ready or not, and it has no wait before one that was paused for the
first time earlier. So it is in whatever order the store hands out its records. -/
theorem paused_first_come (retention : MailboxId → Retention) (ts : List TimedOp) :
    let s := (after ts (State.initial retention)).events
    s.FirstCome (pauses · ts) s.paused
      ∧ ∀ l, l.Perm s.records.values → s.FirstCome (pauses · ts) (listPaused l) := by
  intro s
  have htold : ∀ key, Record.Told key (pauses key ts) (s.find? key) := fun key =>
    told_after ts (show Record.Told key [] ((State.initial retention).events.find? key) from rfl)
  exact ⟨RecordStore.firstCome_listPaused htold (.refl _),
    fun l hl => RecordStore.firstCome_listPaused htold hl⟩

/-- A wait for a shipment, then one for a payment that claims to have begun long before. The first
is paused again, and the shipment arrives. -/
def latecomer : List TimedOp :=
  let early (r : Record) : Record := { r with paused := true, firstPaused := some default }
  [⟨.pause (.placeholder "ORD1::SHIPPED" "ORD1" (some "SHIPPED") default), 1000, fun _ => none⟩,
    ⟨.save (early (.observed "ORD1" "PAID" .null default)), 2000, fun _ => none⟩,
    ⟨.pause (early (.placeholder "ORD1::PAID" "ORD1" (some "PAID") default)), 3000, fun _ => none⟩,
    ⟨.pause (.placeholder "ORD1::SHIPPED" "ORD1" (some "SHIPPED") default), 4000, fun _ => none⟩,
    ⟨.accept ⟨some 0⟩ (.observed "ORD1" "SHIPPED" .null default), 5000, fun _ => none⟩]

theorem latecomer_listed_last :
    let s := (after latecomer (State.initial fun _ => ⟨0, 1, fun _ => 0⟩)).events
    let listed := listPaused s.records.values.reverse
    s.FirstCome (pauses · latecomer) listed
      ∧ listed.map (·.key) = ["ORD1::SHIPPED", "ORD1::PAID"] := by
  intro s listed
  exact ⟨(paused_first_come _ latecomer).2 _ (List.reverse_perm _), by rfl⟩

end TimedOp

end Rendezvous
