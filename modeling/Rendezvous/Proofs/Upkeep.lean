import Mathlib.Data.Finset.Max
import Rendezvous.Proofs.Retention

/-!
# How a mailbox keeps its tables in order

A mailbox has two tables over the same keys: who waits for a key, and what is held for one. They
exclude each other, for a completion is held only when nobody waits, and a receiver waits only when
nothing is held. That needs the mailbox to be pruned first: a result that has expired must be gone
before a receiver begins to wait for its key, and the places of receivers that are gone before a
result is held. The bound on what is held needs it too, or an expired result would cost a live one
its room.

`Orderly` is what every call keeps up, `Pruned` is what pruning does to any mailbox, also to one in
the middle of a completion, and `kept_in_order` puts the two together for every run.
-/

namespace Rendezvous

/-! ## Sizes -/

namespace Table

variable {α : Type} (t : Table α)

theorem keys_insert (k : String) (v : α) : (t.insert k v).keys = Insert.insert k t.keys := by
  ext j
  rw [mem_keys, Finset.mem_insert, mem_keys, get?_insert]
  by_cases h : j = k <;> simp [h]

theorem keys_erase (k : String) : (t.erase k).keys = t.keys.erase k := by
  ext j
  rw [mem_keys, Finset.mem_erase, mem_keys]
  by_cases h : j = k
  · subst h
    simp
  · simp [get?_erase_ne t h, h]

theorem size_insert_le (k : String) (v : α) : (t.insert k v).size ≤ t.size + 1 := by
  rw [← card_keys, keys_insert, ← card_keys]
  exact Finset.card_insert_le _ _

theorem size_insert_of_contains {k : String} (v : α) (h : t.contains k = true) :
    (t.insert k v).size = t.size := by
  have hk : k ∈ t.keys := t.mem_keys.mpr (Option.isSome_iff_exists.mp h)
  rw [← card_keys, keys_insert, Finset.insert_eq_of_mem hk, card_keys]

theorem size_erase_add_one {k : String} {v : α} (h : t.get? k = some v) :
    (t.erase k).size + 1 = t.size := by
  rw [← card_keys, keys_erase, Finset.card_erase_add_one (t.mem_keys.mpr ⟨v, h⟩), card_keys]

theorem size_filter_le (p : String → α → Bool) : (t.filter p).size ≤ t.size :=
  List.length_filter_le _ _

end Table

namespace Mailbox

variable {a : Mailbox} {ret : Retention} {now capacity : Nat} {key : String} {result : Record}

/-! ## Pruning -/

/-- `b` is `a` without the places of receivers that are no longer pending and without the results
that are held for as long as `ttl` or longer. -/
structure Pruned (ttl now : Nat) (a b : Mailbox) : Prop where
  receivers : b.receivers = a.receivers
  places : ∀ {key id}, id ∈ b.queue key ↔ id ∈ a.queue key ∧ a.isPending id = true
  results : ∀ {key h}, b.held.get? key = some h ↔ a.held.get? key = some h ∧ now - h.since < ttl

theorem pruned_prune (a : Mailbox) (ret : Retention) (now : Nat) :
    Pruned ret.ttl now a (a.prune ret now) where
  receivers := rfl
  places := by
    intro key id
    rw [queue_prune]
    exact List.mem_filter
  results := by
    intro key h
    rw [get?_held_prune, unexpired, Option.filter_eq_some_iff, decide_eq_true_eq]

theorem get?_waiters_prune (a : Mailbox) (ret : Retention) (now : Nat) (key : String) :
    (a.prune ret now).waiters.get? key
      = ((a.waiters.get? key).map (·.filter a.isPending)).filter fun ids => ids ≠ [] := by
  rw [prune, Table.get?_filter, Table.get?_mapValues]

/-! ## The two tables -/

structure Orderly (capacity : Nat) (a : Mailbox) : Prop where
  apart : ∀ {key h}, a.held.get? key = some h → a.waiters.get? key = none
  occupied : ∀ {key ids}, a.waiters.get? key = some ids → ids ≠ []
  bounded : a.held.size ≤ max 1 capacity

theorem orderly_empty (capacity : Nat) : Orderly capacity empty where
  apart h := by cases h
  occupied h := by cases h
  bounded := Nat.zero_le _

theorem Orderly.prune (h : a.Orderly capacity) (ret : Retention) (now : Nat) :
    (a.prune ret now).Orderly capacity where
  apart hh := by
    rw [get?_waiters_prune, h.apart ((pruned_prune a ret now).results.mp hh).1]
    rfl
  occupied hw := by
    rw [get?_waiters_prune] at hw
    exact of_decide_eq_true (Option.filter_eq_some_iff.mp hw).2
  bounded := (a.held.size_filter_le _).trans h.bounded

theorem Orderly.eraseWaiters (h : a.Orderly capacity) (key : String) :
    Orderly capacity { a with waiters := a.waiters.erase key } where
  apart {k _} hh := by
    change (a.waiters.erase key).get? k = none
    by_cases hk : k = key
    · rw [hk, Table.get?_erase_self]
    · rw [Table.get?_erase_ne _ hk]
      exact h.apart hh
  occupied {k _} hw := by
    change (a.waiters.erase key).get? k = some _ at hw
    by_cases hk : k = key
    · rw [hk, Table.get?_erase_self] at hw
      cases hw
    · rw [Table.get?_erase_ne _ hk] at hw
      exact h.occupied hw
  bounded := h.bounded

theorem Orderly.eraseHeld (h : a.Orderly capacity) (key : String) :
    Orderly capacity { a with held := a.held.erase key } where
  apart {k hd} hh := by
    rw [Table.erase, Table.get?_filter] at hh
    exact h.apart (Option.filter_eq_some_iff.mp hh).1
  occupied := h.occupied
  bounded := (a.held.size_filter_le _).trans h.bounded

/-- A place is given to a new receiver when nothing is held for its key. -/
theorem Orderly.enqueue (h : a.Orderly capacity) (hkey : a.held.get? key = none) (id : Nat) :
    Orderly capacity { a with waiters := a.waiters.insert key (a.queue key ++ [id]) } where
  apart {k hd} hh := by
    have hk : k ≠ key := by
      rintro rfl
      cases hkey.symm.trans hh
    exact (Table.get?_insert_ne _ _ hk).trans (h.apart hh)
  occupied {k ids} hw := by
    change (a.waiters.insert key _).get? k = some ids at hw
    rw [Table.get?_insert] at hw
    split at hw
    · rw [← Option.some.inj hw]
      exact List.append_ne_nil_of_right_ne_nil _ (List.cons_ne_nil _ _)
    · exact h.occupied hw
  bounded := h.bounded

theorem Orderly.setReceivers (h : a.Orderly capacity) (rs : List Receiver) :
    Orderly capacity { a with receivers := rs } := ⟨h.apart, h.occupied, h.bounded⟩

/-! ## Room for a completion -/

theorem oldest_ne_nil (h : a.held.size ≠ 0) : a.oldest ≠ [] := by
  have hne : a.held.entries.toFinset.Nonempty :=
    List.toFinset_nonempty_iff _ |>.mpr fun he => h (List.length_eq_zero_iff.mpr he)
  obtain ⟨e, he, hmin⟩ := Finset.exists_min_image _ (fun e : String × Held => e.2.since) hne
  have hold : e.1 ∈ a.oldest := by
    refine List.mem_map.mpr ⟨e, List.mem_filter.mpr ⟨List.mem_toFinset.mp he, ?_⟩, rfl⟩
    exact List.all_eq_true.mpr fun d hd => decide_eq_true (hmin d (List.mem_toFinset.mpr hd))
  exact List.ne_nil_of_mem hold

/-- When no key makes room, the buffer is not full or has the key already. -/
theorem room_of_evictee_none (h : a.evictee ret key = none) :
    a.held.size < max 1 ret.capacity ∨ a.held.contains key = true := by
  unfold evictee at h
  split at h
  · rename_i hfull
    rw [Bool.and_eq_true, decide_eq_true_eq] at hfull
    have hne : a.oldest ≠ [] := oldest_ne_nil (by omega)
    have hlt := Nat.mod_lt (ret.place a.oldest) (List.length_pos_of_ne_nil hne)
    rw [List.getElem?_eq_getElem hlt] at h
    cases h
  · rename_i hroom
    rw [Bool.and_eq_true, decide_eq_true_eq, not_and, Bool.not_eq_true', Bool.not_eq_false]
      at hroom
    exact (Nat.lt_or_ge _ _).imp_right hroom

theorem exists_of_evictee {k : String} (h : a.evictee ret key = some k) :
    ∃ e, a.held.get? k = some e := by
  unfold evictee at h
  split at h
  · obtain ⟨e, he, -⟩ := mem_oldest (List.mem_of_getElem? h)
    exact ⟨e, he⟩
  · cases h

theorem size_hold_le (h : (a.prune ret now).held.size ≤ max 1 ret.capacity) :
    (a.hold ret now key result).2.held.size ≤ max 1 ret.capacity := by
  unfold hold
  dsimp only
  cases he : (a.prune ret now).evictee ret key with
  | none =>
      rcases room_of_evictee_none he with hroom | hkey
      · exact (Table.size_insert_le ..).trans hroom
      · exact (Table.size_insert_of_contains _ _ hkey).trans_le h
  | some k =>
      obtain ⟨e, hk⟩ := exists_of_evictee he
      have hsize := Table.size_erase_add_one _ hk
      exact (Table.size_insert_le ..).trans (hsize.trans_le h)

/-- A result is held when nobody has a place under its key. -/
theorem Orderly.hold (h : a.Orderly ret.capacity) (hkey : a.waiters.get? key = none) (now : Nat)
    (result : Record) : (a.hold ret now key result).2.Orderly ret.capacity := by
  have hp := h.prune ret now
  refine ⟨fun {k hd} hh => ?apart, hp.occupied, size_hold_le hp.bounded⟩
  case apart =>
    change (a.prune ret now).waiters.get? k = none
    rw [get?_held_hold] at hh
    split at hh
    · rw [get?_waiters_prune, ‹k = key›, hkey]
      rfl
    · split at hh
      · cases hh
      · exact hp.apart ((get?_held_prune ..).trans hh)

/-! ## Every call -/

theorem Orderly.register (h : a.Orderly capacity) (ret : Retention) (now : Nat) (key : String) :
    (a.register ret now key).2.Orderly capacity := by
  have hp := h.prune ret now
  unfold Mailbox.register
  dsimp only
  cases hh : (a.prune ret now).held.get? key with
  | some hd => exact (hp.eraseHeld key).setReceivers _
  | none => exact (hp.enqueue hh _).setReceivers _

theorem Orderly.complete (h : a.Orderly ret.capacity) (now : Nat) (key : String)
    (result : Record) : (a.complete ret now key result).2.Orderly ret.capacity := by
  have herased := h.eraseWaiters key
  by_cases hl : a.live key = []
  · rw [complete_eq_hold hl]
    exact herased.hold (Table.get?_erase_self ..) now result
  · rw [complete_of_live hl]
    exact herased.setReceivers _

theorem Orderly.receive (h : a.Orderly capacity) (id : Nat) :
    (a.receive id).2.Orderly capacity := by
  unfold Mailbox.receive
  split
  · exact h.setReceivers _
  · exact h
  · exact h

namespace History

theorem orderly_perform (ttl : Nat) {capacity : Nat} {w : History}
    (h : w.mailbox.Orderly capacity) (c : Call) :
    (w.perform ttl capacity c).mailbox.Orderly capacity := by
  cases c with
  | register key => exact h.register _ _ key
  | drop id => exact h.setReceivers _
  | receive id => exact h.receive id
  | complete key result place =>
      have hret : w.mailbox.Orderly (Retention.mk ttl capacity place).capacity := h
      exact hret.complete w.clock key result
  | waiting key => exact h
  | unclaimed => exact h.prune _ _
  | wait ms => exact h

theorem orderly_run (ttl capacity : Nat) (calls : List Call) :
    (run ttl capacity calls).mailbox.Orderly capacity := by
  induction calls using List.reverseRecOn with
  | nil => exact orderly_empty capacity
  | append_singleton calls c ih =>
      rw [run_concat]
      exact orderly_perform ttl ih c

/-- **How a mailbox is kept in order.** After any calls nothing is held for a key that somebody has
a place under, no list of places is empty and no more is held than there is room for. Everybody who
is pending has a place under the key that they were registered for. Pruning takes away the places of
those who are not pending and the results that have expired, and nothing else; so nobody who is
pending loses a place by it, and no result that is younger than `ttl` is lost. -/
theorem kept_in_order (ttl capacity : Nat) (calls : List Call) :
    let w := run ttl capacity calls
    w.mailbox.Orderly capacity
    ∧ (∀ {key : String} {id : Nat}, w.keys[id]? = some key → w.mailbox.isPending id = true →
      ∃ ids, w.mailbox.waiters.get? key = some ids ∧ id ∈ ids)
    ∧ ∀ (a : Mailbox) (place : List String → Nat) (now : Nat),
      Pruned ttl now a (a.prune ⟨ttl, capacity, place⟩ now) := by
  refine ⟨orderly_run ttl capacity calls, ?placed, fun a place now => ?pruned⟩
  case placed =>
    intro key id hk hp
    have hq := (sound_run ttl capacity calls).1.tracks.queued hk hp
    unfold queue at hq
    cases hw : (run ttl capacity calls).mailbox.waiters.get? key with
    | none =>
        rw [hw] at hq
        cases hq
    | some ids =>
        rw [hw] at hq
        exact ⟨ids, rfl, hq⟩
  case pruned => exact pruned_prune a ⟨ttl, capacity, place⟩ now

end History

end Mailbox

end Rendezvous
