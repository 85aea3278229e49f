import Mathlib.Data.List.Nodup
import Rendezvous.Mailbox

/-!
# Who waits in a mailbox

A mailbox keeps receivers by number and, for each key, the numbers of those that may wait for it.
`Mailbox.Tracks` ties the two to the keys the receivers were registered for, one after the other:
whoever waits under a key was registered for it, and whoever is still pending waits under its key.
Every operation of a mailbox keeps this up, and a completion resolves exactly the pending receivers
of its key.
-/

namespace Rendezvous.Mailbox

/-- The receivers that may wait for `key`, in the order they were registered. Some of them may be
gone. -/
def queue (a : Mailbox) (key : String) : List Nat := (a.waiters.get? key).getD []

/-- Those of them that are pending, which are the ones a completion resolves. -/
def live (a : Mailbox) (key : String) : List Nat := (a.queue key).filter a.isPending

theorem waiting_eq (a : Mailbox) (key : String) : a.waiting key = (a.live key).length := rfl

/-- The mailbox keeps track of its receivers, which were registered for `keys`, one key for each
number: each pending one is listed under its key, and none under another. -/
structure Tracks (keys : List String) (a : Mailbox) : Prop where
  length_eq : a.receivers.length = keys.length
  nodup : ∀ key, (a.queue key).Nodup
  registered : ∀ {key id}, id ∈ a.queue key → keys[id]? = some key
  queued : ∀ {key id}, keys[id]? = some key → a.isPending id = true → id ∈ a.queue key

theorem tracks_empty : empty.Tracks [] where
  length_eq := rfl
  nodup _ := .nil
  registered h := by cases h
  queued h := by cases h

variable {a : Mailbox} {keys : List String} {ret : Retention} {now : Nat} {key : String}

/-- A receiver waits for one key only. -/
theorem Tracks.key_unique (h : a.Tracks keys) {k : String} {id : Nat} (hk : id ∈ a.queue k)
    (hkey : id ∈ a.queue key) : k = key :=
  Option.some.inj ((h.registered hk).symm.trans (h.registered hkey))

/-! ## Receivers that change -/

theorem isPending_set (a : Mailbox) (id j : Nat) {r : Receiver} (hr : r ≠ .pending) :
    isPending { a with receivers := a.receivers.set id r } j = (a.isPending j && !(j == id)) := by
  unfold isPending
  by_cases hj : j = id
  · subst hj
    by_cases hlen : j < a.receivers.length
    · simp [List.getElem?_set_self hlen, hr]
    · simp [hlen]
  · simp [List.getElem?_set_ne (Ne.symm hj), hj]

theorem isPending_resolve (result : Record) (j : Nat) : ∀ (ids : List Nat) (a : Mailbox),
    (a.resolve result ids).isPending j = (a.isPending j && !(ids.contains j))
  | [], a => (Bool.and_true _).symm
  | id :: ids, a => by
      have hset := isPending_set a id j (r := .resolved result) (by simp)
      have := isPending_resolve result j ids
        { a with receivers := a.receivers.set id (.resolved result) }
      rw [hset] at this
      rw [List.contains_cons, Bool.not_or, ← Bool.and_assoc]
      exact this

theorem length_resolve (result : Record) : ∀ (ids : List Nat) (a : Mailbox),
    (a.resolve result ids).receivers.length = a.receivers.length
  | [], _ => rfl
  | id :: ids, a => by
      have := length_resolve result ids
        { a with receivers := a.receivers.set id (.resolved result) }
      exact this.trans List.length_set

/-- Those who are resolved have the result; nothing changes for anybody else. -/
theorem getElem?_resolve (result : Record) (j : Nat) : ∀ (ids : List Nat) (a : Mailbox),
    (∀ id ∈ ids, id < a.receivers.length) → (a.resolve result ids).receivers[j]?
      = if j ∈ ids then some (.resolved result) else a.receivers[j]?
  | [], _, _ => rfl
  | id :: ids, a, h => by
      have hrest := getElem?_resolve result j ids
        { a with receivers := a.receivers.set id (.resolved result) }
        fun i hi => by rw [List.length_set]; exact h i (List.mem_cons_of_mem _ hi)
      refine hrest.trans ?_
      by_cases hj : j ∈ ids
      · rw [if_pos hj, if_pos (List.mem_cons_of_mem _ hj)]
      · rw [if_neg hj]
        by_cases hid : id = j
        · subst hid
          rw [if_pos List.mem_cons_self, List.getElem?_set_self (h id List.mem_cons_self)]
        · have hn : j ∉ id :: ids := by simp [hj, Ne.symm hid]
          rw [if_neg hn, List.getElem?_set_ne hid]

theorem lt_of_isPending {a : Mailbox} {id : Nat} (h : a.isPending id = true) :
    id < a.receivers.length :=
  (List.getElem?_eq_some_iff.mp (of_decide_eq_true h)).1

/-! ## Pruning -/

/-- The completion held for `key`, if it has not expired. -/
def unexpired (a : Mailbox) (ret : Retention) (now : Nat) (key : String) : Option Held :=
  (a.held.get? key).filter fun h => now - h.since < ret.ttl

theorem get?_held_prune (a : Mailbox) (ret : Retention) (now : Nat) (key : String) :
    (a.prune ret now).held.get? key = a.unexpired ret now key := Table.get?_filter ..

theorem queue_prune (a : Mailbox) (ret : Retention) (now : Nat) (key : String) :
    (a.prune ret now).queue key = a.live key := by
  unfold queue live
  rw [prune, Table.get?_filter, Table.get?_mapValues, queue]
  cases a.waiters.get? key with
  | none => rfl
  | some ids =>
      simp only [Option.map_some, Option.getD_some]
      by_cases h : ids.filter a.isPending = []
      · simp [Option.filter, h]
      · simp [Option.filter, h]

theorem Tracks.prune (h : a.Tracks keys) (ret : Retention) (now : Nat) :
    (a.prune ret now).Tracks keys where
  length_eq := h.length_eq
  nodup key := queue_prune a ret now key ▸ (h.nodup key).filter _
  registered hid := by
    rw [queue_prune] at hid
    exact h.registered (List.mem_of_mem_filter hid)
  queued hk hp := by
    rw [queue_prune]
    exact List.mem_filter.mpr ⟨h.queued hk hp, hp⟩

/-! ## Completions -/

theorem queue_erase (a : Mailbox) (key k : String) :
    queue { a with waiters := a.waiters.erase key } k = if k = key then [] else a.queue k := by
  unfold queue
  split
  · subst k
    rw [Table.get?_erase_self]
    rfl
  · rw [Table.get?_erase_ne _ ‹_›]

/-- A completion that somebody waits for resolves them all. -/
theorem complete_of_live {result : Record} (h : a.live key ≠ []) :
    a.complete ret now key result = (⟨(a.live key).length, none⟩,
      resolve { a with waiters := a.waiters.erase key } result (a.live key)) := if_neg h

/-- A completion that nobody waits for is held. -/
theorem complete_eq_hold {result : Record} (h : a.live key = []) :
    a.complete ret now key result =
      (⟨0, (hold { a with waiters := a.waiters.erase key } ret now key result).1⟩,
        (hold { a with waiters := a.waiters.erase key } ret now key result).2) := by
  unfold complete
  rw [show ((a.waiters.get? key).getD []).filter a.isPending = [] from h]
  rfl

theorem complete_of_idle {result : Record} (h : a.live key = []) :
    ∃ evicted held, a.complete ret now key result = (⟨0, evicted⟩,
      { prune { a with waiters := a.waiters.erase key } ret now with held := held }) :=
  ⟨_, _, complete_eq_hold h⟩

theorem delivered_complete (a : Mailbox) (ret : Retention) (now : Nat) (key : String)
    (result : Record) : (a.complete ret now key result).1.delivered = a.waiting key := by
  rw [waiting_eq]
  by_cases h : a.live key = []
  · obtain ⟨evicted, held, he⟩ := complete_of_idle h
    rw [he, h]
    rfl
  · rw [complete_of_live h]

/-- A completion that is delivered leaves what is held alone. -/
theorem held_complete {result : Record} (h : a.waiting key ≠ 0) :
    (a.complete ret now key result).2.held = a.held := by
  rw [complete_of_live fun he => h (by rw [waiting_eq, he]; rfl)]
  rfl

theorem get?_held_hold (a : Mailbox) (ret : Retention) (now : Nat) (key : String)
    (result : Record) (k : String) : (a.hold ret now key result).2.held.get? k
      = if k = key then some ⟨result, now⟩
        else if (a.hold ret now key result).1 = some k then none
        else a.unexpired ret now k := by
  have hkept := get?_held_prune a ret now k
  have hfst : (a.hold ret now key result).1 = (a.prune ret now).evictee ret key := rfl
  have hsnd : (a.hold ret now key result).2.held
      = (((a.prune ret now).evictee ret key).elim (a.prune ret now).held
        (a.prune ret now).held.erase).insert key ⟨result, now⟩ := by
    unfold hold
    dsimp only
    cases (a.prune ret now).evictee ret key <;> rfl
  rw [hfst, hsnd, Table.get?_insert]
  cases (a.prune ret now).evictee ret key with
  | none => exact if_congr Iff.rfl rfl hkept
  | some e =>
      refine if_congr Iff.rfl rfl ?_
      by_cases he : e = k
      · rw [if_pos (congrArg some he), he]
        exact Table.get?_erase_self ..
      · rw [if_neg fun h => he (Option.some.inj h)]
        exact (Table.get?_erase_ne _ (Ne.symm he)).trans hkept

/-- The buffer after a completion that nobody waits for: the result comes in, and at most one other
goes out. -/
theorem get?_held_complete {result : Record} (h : a.live key = []) (k : String) :
    (a.complete ret now key result).2.held.get? k
      = if k = key then some ⟨result, now⟩
        else if (a.complete ret now key result).1.evicted = some k then none
        else a.unexpired ret now k := by
  rw [complete_eq_hold h]
  exact get?_held_hold { a with waiters := a.waiters.erase key } ret now key result k

theorem mem_oldest {a : Mailbox} {k : String} (h : k ∈ a.oldest) :
    ∃ e, a.held.get? k = some e ∧ ∀ j d, a.held.get? j = some d → e.since ≤ d.since := by
  obtain ⟨⟨k, e⟩, hm, rfl⟩ := List.mem_map.mp h
  obtain ⟨hm, hall⟩ := List.mem_filter.mp hm
  refine ⟨e, Table.mem_entries.mp hm, fun j d hd => ?_⟩
  exact of_decide_eq_true (List.all_eq_true.mp hall (j, d) (Table.mem_entries.mpr hd))

/-- Only a full buffer without the key loses a completion, and that is one of those held longest.
Which of them it is depends on the buffer. -/
theorem evicted_complete {result : Record} {k : String}
    (h : (a.complete ret now key result).1.evicted = some k) :
    max 1 ret.capacity ≤ (a.prune ret now).held.size ∧ a.unexpired ret now key = none
      ∧ ∃ e, a.unexpired ret now k = some e
        ∧ ∀ j d, a.unexpired ret now j = some d → e.since ≤ d.since := by
  by_cases hl : a.live key = []
  · rw [complete_eq_hold hl] at h
    change evictee (prune { a with waiters := a.waiters.erase key } ret now) ret key = some k at h
    unfold evictee at h
    split at h
    · rename_i hfull
      rw [Bool.and_eq_true, decide_eq_true_eq, Bool.not_eq_true', Table.contains,
        Option.isSome_eq_false_iff, Option.isNone_iff_eq_none] at hfull
      refine ⟨hfull.1, (get?_held_prune a ret now key).symm.trans hfull.2, ?_⟩
      obtain ⟨e, he, hall⟩ := mem_oldest (List.mem_of_getElem? h)
      refine ⟨e, (get?_held_prune a ret now k).symm.trans he, fun j d hd => hall j d ?_⟩
      exact (get?_held_prune a ret now j).trans hd
    · cases h
  · rw [complete_of_live hl] at h
    cases h

theorem isPending_complete (a : Mailbox) (ret : Retention) (now : Nat) (key : String)
    (result : Record) (id : Nat) : (a.complete ret now key result).2.isPending id
      = (a.isPending id && !((a.live key).contains id)) := by
  by_cases h : a.live key = []
  · obtain ⟨evicted, held, he⟩ := complete_of_idle h
    rw [he, h]
    exact (Bool.and_true _).symm
  · rw [complete_of_live h]
    exact isPending_resolve ..

/-- A completion gives its result to the pending receivers of its key and to nobody else. All that
is said of who gets what goes back to this. -/
theorem getElem?_complete (a : Mailbox) (ret : Retention) (now : Nat) (key : String)
    (result : Record) (id : Nat) : (a.complete ret now key result).2.receivers[id]?
      = if id ∈ a.live key then some (.resolved result) else a.receivers[id]? := by
  by_cases h : a.live key = []
  · obtain ⟨evicted, held, he⟩ := complete_of_idle h
    rw [he, h, if_neg List.not_mem_nil]
    rfl
  · rw [complete_of_live h]
    exact getElem?_resolve result id _ _ fun i hi =>
      lt_of_isPending (List.mem_filter.mp hi).2

theorem length_complete (a : Mailbox) (ret : Retention) (now : Nat) (key : String)
    (result : Record) :
    (a.complete ret now key result).2.receivers.length = a.receivers.length := by
  by_cases h : a.live key = []
  · obtain ⟨evicted, held, he⟩ := complete_of_idle h
    rw [he]
    rfl
  · rw [complete_of_live h]
    exact length_resolve ..

theorem queue_complete (a : Mailbox) (ret : Retention) (now : Nat) (key : String)
    (result : Record) (k : String) : (a.complete ret now key result).2.queue k
      = if k = key then [] else if a.live key = [] then a.live k else a.queue k := by
  by_cases h : a.live key = []
  · obtain ⟨evicted, held, he⟩ := complete_of_idle h
    rw [he, if_pos h]
    change (prune { a with waiters := a.waiters.erase key } ret now).queue k = _
    rw [queue_prune, live, queue_erase]
    split
    · rfl
    · rfl
  · rw [complete_of_live h, if_neg h]
    exact queue_erase a key k

theorem Tracks.complete (h : a.Tracks keys) (ret : Retention) (now : Nat) (key : String)
    (result : Record) : (a.complete ret now key result).2.Tracks keys where
  length_eq := (length_complete ..).trans h.length_eq
  nodup k := by
    rw [queue_complete]
    split
    · exact .nil
    · split
      · exact (h.nodup k).filter _
      · exact h.nodup k
  registered hid := by
    rw [queue_complete] at hid
    split at hid
    · cases hid
    · split at hid
      · exact h.registered (List.mem_of_mem_filter hid)
      · exact h.registered hid
  queued {k id} hk hp := by
    rw [isPending_complete, Bool.and_eq_true, Bool.not_eq_true', List.contains_eq_mem,
      decide_eq_false_iff_not] at hp
    obtain ⟨hp, hnl⟩ := hp
    have hq := h.queued hk hp
    have hne : k ≠ key := by
      rintro rfl
      exact hnl (List.mem_filter.mpr ⟨hq, hp⟩)
    rw [queue_complete, if_neg hne]
    split
    · exact List.mem_filter.mpr ⟨hq, hp⟩
    · exact hq

/-- After a completion nobody waits for its key any more. -/
theorem Tracks.not_pending_complete (h : a.Tracks keys) {id : Nat} (hk : keys[id]? = some key)
    (ret : Retention) (now : Nat) (result : Record) :
    (a.complete ret now key result).2.isPending id = false := by
  rw [isPending_complete]
  cases hp : a.isPending id with
  | false => rfl
  | true =>
      have hl : id ∈ a.live key := List.mem_filter.mpr ⟨h.queued hk hp, hp⟩
      simp [hl]

/-- A completion changes nothing for those who wait for other keys. -/
theorem Tracks.live_complete (h : a.Tracks keys) {k : String} (hk : k ≠ key) (ret : Retention)
    (now : Nat) (result : Record) : (a.complete ret now key result).2.live k = a.live k := by
  have hsame : ∀ id ∈ a.queue k,
      (a.complete ret now key result).2.isPending id = a.isPending id := by
    intro id hid
    rw [isPending_complete]
    have hn : id ∉ a.live key := fun hl => hk (h.key_unique hid (List.mem_of_mem_filter hl))
    simp [hn]
  rw [live, queue_complete, if_neg hk]
  split
  · rw [live, List.filter_filter]
    exact List.filter_congr fun id hid => by rw [hsame id hid, Bool.and_self]
  · exact List.filter_congr hsame

/-! ## The receiving side -/

/-- A receiver that stops waiting, however it does. -/
theorem Tracks.set (h : a.Tracks keys) (id : Nat) {r : Receiver} (hr : r ≠ .pending) :
    Tracks keys { a with receivers := a.receivers.set id r } where
  length_eq := List.length_set.trans h.length_eq
  nodup := h.nodup
  registered := h.registered
  queued hk hp := by
    rw [isPending_set a id _ hr, Bool.and_eq_true] at hp
    exact h.queued hk hp.1

theorem Tracks.drop (h : a.Tracks keys) (id : Nat) : (a.drop id).Tracks keys :=
  h.set id (by simp)

theorem Tracks.receive (h : a.Tracks keys) (id : Nat) : (a.receive id).2.Tracks keys := by
  unfold Mailbox.receive
  split
  · exact h.set id (by simp)
  · exact h
  · exact h

theorem isPending_append (a : Mailbox) (r : Receiver) (id : Nat) :
    isPending { a with receivers := a.receivers ++ [r] } id
      = if id = a.receivers.length then decide (r = .pending) else a.isPending id := by
  unfold isPending
  by_cases h : id < a.receivers.length
  · rw [List.getElem?_append_left h, if_neg (Nat.ne_of_lt h)]
  · split
    · subst id
      simp
    · rw [List.getElem?_eq_none (by simp; omega), List.getElem?_eq_none (Nat.le_of_not_lt h)]

theorem queue_insert (a : Mailbox) (key : String) (ids : List Nat) (k : String) :
    queue { a with waiters := a.waiters.insert key ids } k
      = if k = key then ids else a.queue k := by
  unfold queue
  rw [Table.get?_insert]
  split <;> rfl

/-- How a new receiver begins: resolved, if a completion is held for its key and has not expired,
and else pending. -/
def arrival (a : Mailbox) (ret : Retention) (now : Nat) (key : String) : Receiver :=
  match a.unexpired ret now key with
  | some h => .resolved h.result
  | none => .pending

theorem register_fst (a : Mailbox) (ret : Retention) (now : Nat) (key : String) :
    (a.register ret now key).1 = (a.receivers.length, (a.unexpired ret now key).isSome) := by
  rw [← get?_held_prune]
  unfold Mailbox.register
  dsimp only
  cases (a.prune ret now).held.get? key with
  | some h => rfl
  | none => rfl

theorem receivers_register (a : Mailbox) (ret : Retention) (now : Nat) (key : String) :
    (a.register ret now key).2.receivers = a.receivers ++ [a.arrival ret now key] := by
  rw [arrival, ← get?_held_prune]
  unfold Mailbox.register
  dsimp only
  cases (a.prune ret now).held.get? key with
  | some h => rfl
  | none => rfl

/-- A completion held for the key goes to the new receiver. -/
theorem get?_held_register (a : Mailbox) (ret : Retention) (now : Nat) (key k : String) :
    (a.register ret now key).2.held.get? k
      = if k = key then none else a.unexpired ret now k := by
  rw [← get?_held_prune]
  unfold Mailbox.register
  dsimp only
  by_cases hk : k = key
  · subst k
    rw [if_pos rfl]
    split
    · exact Table.get?_erase_self ..
    · assumption
  · rw [if_neg hk]
    split
    · exact Table.get?_erase_ne _ hk
    · rfl

/-- A receiver that nothing is held for waits behind those that wait for its key already. -/
theorem live_register (h : a.unexpired ret now key = none) :
    (a.register ret now key).2.live key = a.live key ++ [a.receivers.length] := by
  have hqueue : (a.register ret now key).2.queue key = a.live key ++ [a.receivers.length] := by
    rw [← queue_prune a ret now key]
    rw [← get?_held_prune] at h
    unfold Mailbox.register
    dsimp only
    rw [h]
    exact (queue_insert _ key _ key).trans (if_pos rfl)
  have hpending : ∀ id, (a.register ret now key).2.isPending id
      = if id = a.receivers.length then true else a.isPending id := by
    intro id
    refine Eq.trans ?_ ((isPending_append a (a.arrival ret now key) id).trans ?_)
    · rw [isPending, receivers_register]
      rfl
    · rw [arrival, h]
      rfl
  rw [live, hqueue]
  refine List.filter_eq_self.mpr fun id hid => ?_
  rw [hpending]
  rcases List.mem_append.mp hid with hid | hid
  · rw [(List.mem_filter.mp hid).2, ite_self]
  · rw [if_pos (List.mem_singleton.mp hid)]

theorem Tracks.registered_append (h : a.Tracks keys) {k : String} {id : Nat}
    (hid : id ∈ a.queue k) : (keys ++ [key])[id]? = some k := by
  have hk := h.registered hid
  rw [List.getElem?_append_left (List.getElem?_eq_some_iff.mp hk).1]
  exact hk

theorem Tracks.queued_append (h : a.Tracks keys) {k : String} {id : Nat}
    (hk : (keys ++ [key])[id]? = some k) (hne : id ≠ a.receivers.length)
    (hp : a.isPending id = true) : id ∈ a.queue k := by
  have hlt := (List.getElem?_eq_some_iff.mp hk).1
  rw [List.length_append, List.length_singleton, ← h.length_eq] at hlt
  have hold : id < keys.length := by have := h.length_eq; omega
  rw [List.getElem?_append_left hold] at hk
  exact h.queued hk hp

/-- A receiver that is not pending is added to those registered. -/
theorem Tracks.append_resolved (h : a.Tracks keys) (key : String) {r : Receiver}
    (hr : r ≠ .pending) :
    Tracks (keys ++ [key]) { a with receivers := a.receivers ++ [r] } where
  length_eq := by simp [h.length_eq]
  nodup := h.nodup
  registered := h.registered_append
  queued hk hp := by
    rw [isPending_append] at hp
    split at hp
    · simp [hr] at hp
    · exact h.queued_append hk ‹_› hp

theorem Tracks.append_pending (h : a.Tracks keys) (key : String) :
    Tracks (keys ++ [key]) { a with
      receivers := a.receivers ++ [.pending]
      waiters := a.waiters.insert key (a.queue key ++ [a.receivers.length]) } where
  length_eq := by simp [h.length_eq]
  nodup k := by
    change (queue { a with waiters := _ } k).Nodup
    rw [queue_insert]
    split
    · refine List.nodup_append.mpr ⟨h.nodup key, by simp, fun id hid j hj => ?_⟩
      have hlt := (List.getElem?_eq_some_iff.mp (h.registered hid)).1
      have hlen := h.length_eq
      rw [List.mem_singleton.mp hj]
      omega
    · exact h.nodup k
  registered {k id} hid := by
    change id ∈ queue { a with waiters := _ } k at hid
    rw [queue_insert] at hid
    split at hid
    · subst k
      rcases List.mem_append.mp hid with hid | hid
      · exact h.registered_append hid
      · rw [List.mem_singleton.mp hid, h.length_eq]
        simp
    · exact h.registered_append hid
  queued {k id} hk hp := by
    change id ∈ queue { a with waiters := _ } k
    change isPending { a with receivers := _ } id = true at hp
    rw [queue_insert]
    rw [isPending_append] at hp
    split at hp
    · rename_i hid
      rw [hid, h.length_eq] at hk
      obtain rfl : key = k := by simpa using hk
      rw [if_pos rfl, hid]
      exact List.mem_append_right _ List.mem_cons_self
    · have hq := h.queued_append hk ‹_› hp
      split
      · subst k
        exact List.mem_append_left _ hq
      · exact hq

/-- The new receiver gets the next number. -/
theorem Tracks.register (h : a.Tracks keys) (ret : Retention) (now : Nat) (key : String) :
    (a.register ret now key).2.Tracks (keys ++ [key]) := by
  have hp := h.prune ret now
  unfold Mailbox.register
  dsimp only
  split
  · rename_i held _
    have happ := hp.append_resolved key (r := .resolved held.result) (by simp)
    exact ⟨happ.length_eq, happ.nodup, happ.registered, happ.queued⟩
  · exact hp.append_pending key

/-! ## How many wait -/

theorem Tracks.mem_live (h : a.Tracks keys) {id : Nat} :
    id ∈ a.live key ↔ a.isPending id = true ∧ keys[id]? = some key := by
  rw [live, List.mem_filter]
  constructor
  · rintro ⟨hq, hp⟩
    exact ⟨hp, h.registered hq⟩
  · rintro ⟨hp, hk⟩
    exact ⟨h.queued hk hp, hp⟩

theorem Tracks.mem_live_register (h : a.Tracks keys) {k : String} {id : Nat}
    (hid : id ∈ a.live k) : id ∈ (a.register ret now key).2.live k := by
  obtain ⟨hp, hk⟩ := h.mem_live.mp hid
  refine (h.register ret now key).mem_live.mpr ⟨?_, ?_⟩
  · rw [isPending, receivers_register, List.getElem?_append_left (lt_of_isPending hp)]
    exact hp
  · rw [List.getElem?_append_left (List.getElem?_eq_some_iff.mp hk).1]
    exact hk

/-- One receiver that is dropped changes nothing for another. -/
theorem mem_live_drop {id j : Nat} (h : id ∈ a.live key) (hne : id ≠ j) :
    id ∈ (a.drop j).live key := by
  obtain ⟨hq, hp⟩ := List.mem_filter.mp h
  refine List.mem_filter.mpr ⟨hq, ?_⟩
  rw [drop, isPending_set a j id (by simp), hp]
  simpa using hne

/-- Those who wait for one of several keys, counted by key and by number. -/
theorem Tracks.length_flatMap_live (h : a.Tracks keys) {ks : List String} (hks : ks.Nodup) :
    (ks.flatMap a.live).length = ((List.range keys.length).filter fun id =>
      a.isPending id && keys[id]?.any (· ∈ ks)).length := by
  have hnodup : (ks.flatMap a.live).Nodup := by
    refine List.nodup_flatMap.mpr ⟨fun k _ => (h.nodup k).filter _, hks.imp fun hne => ?_⟩
    intro id hid hid'
    exact hne (h.key_unique (List.mem_of_mem_filter hid) (List.mem_of_mem_filter hid'))
  have hperm : (ks.flatMap a.live).Perm ((List.range keys.length).filter fun id =>
      a.isPending id && keys[id]?.any (· ∈ ks)) := by
    refine (List.perm_ext_iff_of_nodup hnodup (List.nodup_range.filter _)).mpr fun id => ?_
    simp only [List.mem_flatMap, h.mem_live, List.mem_filter, List.mem_range, Bool.and_eq_true,
      Option.any_eq_true, decide_eq_true_eq]
    constructor
    · rintro ⟨k, hk, hp, hid⟩
      exact ⟨(List.getElem?_eq_some_iff.mp hid).1, hp, k, hid, hk⟩
    · rintro ⟨-, hp, k, hid, hk⟩
      exact ⟨k, hk, hp, hid⟩
  exact hperm.length_eq

end Rendezvous.Mailbox
