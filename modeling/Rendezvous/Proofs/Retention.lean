import Mathlib.Data.Finset.Card
import Rendezvous.Proofs.Deliveries

/-!
# How long a mailbox holds a result

A completion that reached nobody is held, but not for good: it expires, and when the buffer is full
the oldest one leaves. The first loss is a matter of time. The second one can be counted: whatever
is held beside the oldest completion is from other keys and came in later, and so did the
completion that needs the room. As long as fewer other keys had completions that reached nobody
than the buffer has places, `retained` says, a completion is there until it expires.
-/

namespace Rendezvous

namespace Table

variable {α : Type} (t : Table α)

def keys : Finset String := (t.entries.map (·.1)).toFinset

theorem mem_keys {k : String} : k ∈ t.keys ↔ ∃ v, t.get? k = some v := by
  rw [keys, List.mem_toFinset, List.mem_map]
  constructor
  · rintro ⟨⟨k, v⟩, hm, rfl⟩
    exact ⟨v, mem_entries.mp hm⟩
  · rintro ⟨v, hv⟩
    exact ⟨(k, v), mem_entries.mpr hv, rfl⟩

theorem card_keys : t.keys.card = t.size := by
  rw [keys, List.toFinset_card_of_nodup t.nodup_keys, List.length_map, size]

end Table

namespace Mailbox

/-- The call is one that can take away or replace what is held for `key`: a receiver is registered
for it, or it is completed again. -/
def Call.Touches (key : String) : Call → Prop
  | .register k | .complete k _ _ => k = key
  | _ => False

namespace History

/-- The keys other than `key` with completions at `time` or later that reached nobody. Each counts
once, however many it had. -/
def rivals (w : History) (key : String) (time : Nat) : Finset String :=
  ((w.completions.filter fun c => c.reached = 0 ∧ time ≤ c.time ∧ c.key ≠ key).map
    (·.key)).toFinset

variable {w v : History} {key k : String} {time : Nat}

theorem mem_rivals : k ∈ w.rivals key time ↔
    k ≠ key ∧ ∃ c ∈ w.completions, c.key = k ∧ c.reached = 0 ∧ time ≤ c.time := by
  simp only [rivals, List.mem_toFinset, List.mem_map, List.mem_filter, decide_eq_true_eq]
  constructor
  · rintro ⟨c, ⟨hm, hr, ht, hk⟩, rfl⟩
    exact ⟨hk, c, hm, rfl, hr, ht⟩
  · rintro ⟨hk, c, hm, rfl, hr, ht⟩
    exact ⟨c, ⟨hm, hr, ht, hk⟩, rfl⟩

theorem rivals_mono (h : w.completions ⊆ v.completions) (key : String) (time : Nat) :
    w.rivals key time ⊆ v.rivals key time := by
  intro k hk
  obtain ⟨hne, c, hm, hc⟩ := mem_rivals.mp hk
  exact mem_rivals.mpr ⟨hne, c, h hm, hc⟩

/-- The result of the completion of `key` at `time`, as long as nobody asks for it: nothing else is
held for the key, and until it has expired it is still there unless too many keys wanted its
room. -/
structure Retains (ttl capacity : Nat) (key : String) (result : Record) (time : Nat)
    (w : History) : Prop where
  past : time ≤ w.clock
  only : ∀ h, w.mailbox.held.get? key = some h → h = ⟨result, time⟩
  kept : w.clock - time < ttl → (w.rivals key time).card < max 1 capacity →
    w.mailbox.held.get? key = some ⟨result, time⟩

variable {ttl capacity : Nat} {result : Record}

/-- A call that adds no completion and takes from the buffer only what has expired. -/
theorem Retains.of_unexpired (h : w.Retains ttl capacity key result time)
    (hclock : w.clock ≤ v.clock) (hc : w.completions ⊆ v.completions)
    (hheld : v.mailbox.held.get? key = w.mailbox.held.get? key
      ∨ ∃ place, v.mailbox.held.get? key
        = w.mailbox.unexpired ⟨ttl, capacity, place⟩ w.clock key) :
    v.Retains ttl capacity key result time := by
  refine ⟨h.past.trans hclock, ?only, ?kept⟩
  case only =>
    intro hd hh
    rcases hheld with heq | ⟨place, heq⟩
    · exact h.only hd (heq ▸ hh)
    · rw [heq] at hh
      exact h.only hd (Option.filter_eq_some_iff.mp hh).1
  case kept =>
    intro hage hcard
    have hage' : w.clock - time < ttl := by omega
    have hcard' : (w.rivals key time).card < max 1 capacity :=
      Nat.lt_of_le_of_lt (Finset.card_le_card (rivals_mono hc key time)) hcard
    have hkept := h.kept hage' hcard'
    rcases hheld with heq | ⟨place, heq⟩
    · rw [heq, hkept]
    · rw [heq, unexpired, hkept]
      simp [Option.filter, hage']

/-- Whatever is held beside a completion of `time` that is the oldest one is from a rival. So it can
be counted among them. -/
theorem held_subset_rivals (hst : w.Stocked) {ret : Retention} {now : Nat}
    (hold : ∀ j d, w.mailbox.unexpired ret now j = some d → time ≤ d.since) :
    (w.mailbox.prune ret now).held.keys.erase key ⊆ w.rivals key time := by
  intro j hj
  obtain ⟨hne, hj⟩ := Finset.mem_erase.mp hj
  obtain ⟨d, hd⟩ := (Table.mem_keys _).mp hj
  rw [get?_held_prune] at hd
  obtain ⟨n, -, hc, -⟩ := exists_source hst hd
  exact mem_rivals.mpr ⟨hne, _, List.mem_of_getElem? hc, rfl, rfl, hold j d hd⟩

/-- A completion of another key leaves a buffer that has room for all rivals. It needs a place among
the rivals itself, one that is not taken by any of those held. -/
theorem evicted_ne (hst : w.Stocked) {place : List String → Nat} {r : Record}
    (hk : k ≠ key) (hl : w.mailbox.live k = []) (htime : time ≤ w.clock)
    (hheld : w.mailbox.unexpired ⟨ttl, capacity, place⟩ w.clock key = some ⟨result, time⟩)
    (hcard : ((w.perform ttl capacity (.complete k r place)).rivals key time).card
      < max 1 capacity) :
    (w.mailbox.complete ⟨ttl, capacity, place⟩ w.clock k r).1.evicted ≠ some key := by
  intro hev
  obtain ⟨hfull, hnone, e, he, hold⟩ := evicted_complete hev
  obtain rfl := Option.some.inj (he.symm.trans hheld)
  have hsub : (w.mailbox.prune ⟨ttl, capacity, place⟩ w.clock).held.keys.erase key
      ⊆ w.rivals key time := held_subset_rivals hst hold
  have hnew : k ∉ (w.mailbox.prune ⟨ttl, capacity, place⟩ w.clock).held.keys.erase key := by
    intro hm
    obtain ⟨d, hd⟩ := (Table.mem_keys _).mp (Finset.mem_of_mem_erase hm)
    rw [get?_held_prune, hnone] at hd
    cases hd
  have hrival : k ∈ (w.perform ttl capacity (.complete k r place)).rivals key time := by
    have hnobody : (w.mailbox.complete ⟨ttl, capacity, place⟩ w.clock k r).1.delivered = 0 := by
      rw [delivered_complete, waiting_eq, hl]
      rfl
    exact mem_rivals.mpr ⟨hk, _, List.mem_append_right _ List.mem_cons_self, rfl, hnobody, htime⟩
  have hmem : key ∈ (w.mailbox.prune ⟨ttl, capacity, place⟩ w.clock).held.keys :=
    (Table.mem_keys _).mpr ⟨_, (get?_held_prune ..).trans hheld⟩
  have hcount := Finset.card_le_card (Finset.insert_subset hrival (hsub.trans
    (rivals_mono (v := w.perform ttl capacity (.complete k r place))
      (List.subset_append_left _ _) key time)))
  have hroom : max 1 capacity ≤ (w.mailbox.prune ⟨ttl, capacity, place⟩ w.clock).held.size := hfull
  rw [Finset.card_insert_of_notMem hnew, Finset.card_erase_add_one hmem, Table.card_keys] at hcount
  omega

theorem Retains.complete (h : w.Retains ttl capacity key result time) (hst : w.Stocked)
    (hk : k ≠ key) (r : Record) (place : List String → Nat) :
    (w.perform ttl capacity (.complete k r place)).Retains ttl capacity key result time := by
  have hsub : w.completions ⊆ (w.perform ttl capacity (.complete k r place)).completions :=
    List.subset_append_left _ _
  by_cases hl : w.mailbox.live k = []
  · have hheld : (w.mailbox.complete ⟨ttl, capacity, place⟩ w.clock k r).2.held.get? key = _ :=
      get?_held_complete hl key
    rw [if_neg (Ne.symm hk)] at hheld
    by_cases hev : (w.mailbox.complete ⟨ttl, capacity, place⟩ w.clock k r).1.evicted = some key
    · rw [if_pos hev] at hheld
      refine ⟨h.past, ?only, ?kept⟩
      case only =>
        intro hd hh
        cases hh.symm.trans hheld
      case kept =>
        intro hage hcard
        have hcard' := Nat.lt_of_le_of_lt (Finset.card_le_card (rivals_mono hsub key time)) hcard
        have hu : w.mailbox.unexpired ⟨ttl, capacity, place⟩ w.clock key
            = some ⟨result, time⟩ := by
          rw [unexpired, h.kept hage hcard']
          exact if_pos (decide_eq_true hage)
        exact absurd hev (evicted_ne hst hk hl h.past hu hcard)
    · rw [if_neg hev] at hheld
      exact h.of_unexpired (Nat.le_refl _) hsub (.inr ⟨place, hheld⟩)
  · refine h.of_unexpired (Nat.le_refl _) hsub (.inl ?_)
    exact congrArg (·.get? key)
      (Mailbox.held_complete fun h0 => hl (List.length_eq_zero_iff.mp h0))

theorem Retains.perform (h : w.Retains ttl capacity key result time) (hst : w.Stocked) {c : Call}
    (hc : ¬ c.Touches key) : (w.perform ttl capacity c).Retains ttl capacity key result time := by
  have hself : w.completions ⊆ w.completions := List.Subset.refl _
  cases c with
  | register k =>
      refine h.of_unexpired (Nat.le_refl _) hself (.inr ⟨fun _ => 0, ?_⟩)
      exact (get?_held_register ..).trans (if_neg (Ne.symm hc))
  | drop id => exact h.of_unexpired (Nat.le_refl _) hself (.inl rfl)
  | receive id =>
      refine h.of_unexpired (Nat.le_refl _) hself (.inl ?_)
      change (w.mailbox.receive id).2.held.get? key = _
      unfold Mailbox.receive
      split <;> rfl
  | complete k r place => exact h.complete hst hc r place
  | waiting k => exact h
  | unclaimed =>
      exact h.of_unexpired (Nat.le_refl _) hself (.inr ⟨fun _ => 0, get?_held_prune ..⟩)
  | wait ms => exact h.of_unexpired (Nat.le_add_right _ _) hself (.inl rfl)

theorem retains_run (before after : List Call) (place : List String → Nat)
    (hnobody : ((run ttl capacity before).mailbox.complete ⟨ttl, capacity, place⟩
      (run ttl capacity before).clock key result).1.delivered = 0)
    (hafter : ∀ c ∈ after, ¬ c.Touches key) :
    (run ttl capacity (before ++ .complete key result place :: after)).Retains ttl capacity key
      result (run ttl capacity before).clock := by
  induction after using List.reverseRecOn with
  | nil =>
      rw [run_concat]
      rw [delivered_complete, waiting_eq, List.length_eq_zero_iff] at hnobody
      have hheld : ((run ttl capacity before).mailbox.complete ⟨ttl, capacity, place⟩
          (run ttl capacity before).clock key result).2.held.get? key = _ :=
        get?_held_complete hnobody key
      rw [if_pos rfl] at hheld
      exact ⟨Nat.le_refl _, fun hd hh => (Option.some.inj (hheld.symm.trans hh)).symm,
        fun _ _ => hheld⟩
  | append_singleton after c ih =>
      rw [← List.cons_append, ← List.append_assoc, run_concat]
      exact (ih fun d hd => hafter d (List.mem_append_left _ hd)).perform (sound_run ..).2
        (hafter c (List.mem_append_right _ List.mem_cons_self))

/-- **How long a result is held.** Nobody was there for a completion, and since then the key was
neither registered nor completed. A receiver registered before it expires is resolved with its
result, if fewer other keys than the buffer has places had completions meanwhile that reached
nobody; one that is registered later is left waiting. -/
theorem retained (ttl capacity : Nat) (before after : List Call) (key : String) (result : Record)
    (place place' : List String → Nat)
    (hnobody : ((run ttl capacity before).mailbox.complete ⟨ttl, capacity, place⟩
      (run ttl capacity before).clock key result).1.delivered = 0)
    (hafter : ∀ c ∈ after, ¬ c.Touches key) :
    let time := (run ttl capacity before).clock
    let w := run ttl capacity (before ++ .complete key result place :: after)
    let out := w.mailbox.register ⟨ttl, capacity, place'⟩ w.clock key
    (w.clock - time < ttl → (w.rivals key time).card < max 1 capacity →
      out.1.2 = true ∧ out.2.receivers[out.1.1]? = some (.resolved result))
    ∧ (ttl ≤ w.clock - time →
      out.1.2 = false ∧ out.2.receivers[out.1.1]? = some .pending
        ∧ out.2.waiting key = w.mailbox.waiting key + 1) := by
  intro time w out
  have hw : w.Retains ttl capacity key result time := retains_run before after place hnobody hafter
  have hfst : out.1 = (w.mailbox.receivers.length, _) := register_fst ..
  have hreceivers : out.2.receivers = w.mailbox.receivers ++ [_] := receivers_register ..
  rw [hfst, hreceivers, List.getElem?_concat_length, arrival]
  refine ⟨?soon, ?late⟩
  case soon =>
    intro hage hcard
    have hu : w.mailbox.unexpired ⟨ttl, capacity, place'⟩ w.clock key = some ⟨result, time⟩ := by
      rw [unexpired, hw.kept hage hcard]
      exact if_pos (decide_eq_true hage)
    rw [hu]
    exact ⟨rfl, rfl⟩
  case late =>
    intro hage
    have hu : w.mailbox.unexpired ⟨ttl, capacity, place'⟩ w.clock key = none := by
      refine Option.filter_eq_none_iff.mpr fun hd hh => ?_
      rw [hw.only hd hh, decide_eq_true_eq]
      exact Nat.not_lt.mpr hage
    have hlive : out.2.live key = w.mailbox.live key ++ [_] := live_register hu
    rw [hu, waiting_eq, hlive, List.length_append]
    exact ⟨rfl, rfl, rfl⟩

/-- A shipment, and another one that comes in `ms` before somebody asks for the first. -/
def shipments (ms : Nat) : List Call :=
  [.complete "ORD1::SHIPPED" (.observed "ORD1" "SHIPPED" .null default) fun _ => 0,
    .complete "ORD2::SHIPPED" (.observed "ORD2" "SHIPPED" .null default) fun _ => 0, .wait ms]

theorem shipment_retained :
    let late (ms : Nat) := run 1000 2 (shipments ms)
    let out (ms : Nat) := (late ms).mailbox.register ⟨1000, 2, fun _ => 0⟩ (late ms).clock
      "ORD1::SHIPPED"
    (out 999).1.2 = true ∧ (out 1000).1.2 = false := by
  intro late out
  have h (ms : Nat) := retained 1000 2 [] (shipments ms).tail "ORD1::SHIPPED"
    (.observed "ORD1" "SHIPPED" .null default) (fun _ => 0) (fun _ => 0) (by decide +kernel)
    fun c hc => by
      rcases List.mem_cons.mp hc with rfl | hc
      · exact fun h : "ORD2::SHIPPED" = "ORD1::SHIPPED" => absurd h (by decide)
      · rw [List.mem_singleton.mp hc]
        exact id
  exact ⟨((h 999).1 (by decide +kernel) (by decide +kernel)).1, ((h 1000).2 (by decide +kernel)).1⟩

end History

end Mailbox

end Rendezvous
