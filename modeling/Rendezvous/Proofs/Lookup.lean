import Rendezvous.RecordStore

/-!
# What look-ups find

Each query of the record store as a statement on `find?`: the answers are records that are kept,
they pass the query's test, and a record that passes it is not overlooked.
-/

namespace Rendezvous

theorem Table.mem_values {α : Type} {t : Table α} {v : α} :
    v ∈ t.values ↔ ∃ k, t.get? k = some v := by
  simp only [values, List.mem_map, Prod.exists]
  constructor
  · rintro ⟨k, v, h, rfl⟩
    exact ⟨k, mem_entries.mp h⟩
  · rintro ⟨k, h⟩
    exact ⟨k, v, mem_entries.mpr h, rfl⟩

namespace Record

theorem mem_of_newest? {r : Record} : ∀ {l : List Record}, newest? l = some r → r ∈ l
  | [], h => by cases h
  | q :: l, h => by
      rw [newest?] at h
      split at h
      · obtain rfl := Option.some.inj h
        exact List.mem_cons_self
      · rename_i best hbest
        split at h
        · obtain rfl := Option.some.inj h
          exact List.mem_cons_of_mem _ (mem_of_newest? hbest)
        · obtain rfl := Option.some.inj h
          exact List.mem_cons_self

theorem newest?_ne_none {r : Record} {l : List Record} (h : r ∈ l) : ∃ q, newest? l = some q := by
  cases l with
  | nil => cases h
  | cons q l =>
      rw [newest?]
      split
      · exact ⟨_, rfl⟩
      · split <;> exact ⟨_, rfl⟩

theorem timeLe_refl (t : Option Instant) : timeLe t t = true := (timeLe_total t t).elim id id

theorem timeLe_of_newest? {best : Record} :
    ∀ {l : List Record}, newest? l = some best → ∀ r ∈ l, timeLe r.observedAt best.observedAt = true
  | [], h, _, _ => by cases h
  | q :: l, h, r, hr => by
      rw [newest?] at h
      cases hl : newest? l with
      | none =>
          rw [hl] at h
          obtain rfl := Option.some.inj h
          rcases List.mem_cons.mp hr with rfl | hr
          · exact timeLe_refl _
          · obtain ⟨p, hp⟩ := newest?_ne_none hr
            cases hl.symm.trans hp
      | some b =>
          rw [hl] at h
          dsimp only at h
          have hrest := timeLe_of_newest? hl
          split at h
          · obtain rfl := Option.some.inj h
            rcases List.mem_cons.mp hr with rfl | hr
            · assumption
            · exact hrest r hr
          · obtain rfl := Option.some.inj h
            rcases List.mem_cons.mp hr with rfl | hr
            · exact timeLe_refl _
            · have hb : timeLe b.observedAt q.observedAt = true :=
                (timeLe_total q.observedAt b.observedAt).resolve_left (by assumption)
              exact timeLe_trans _ _ _ (hrest r hr) hb

end Record

namespace RecordStore

variable {s : RecordStore} {order eventType : String} {r : Record}

/-- An observation of the order and type that the store keeps, whether by itself or in a wait that
has taken it in. -/
structure Observes (s : RecordStore) (order eventType : String) (r : Record) : Prop where
  kept : ∃ key, s.find? key = some r
  order_eq : r.order = order
  type_eq : r.eventType = some eventType
  observed : r.isObserved = true

theorem mem_candidates {order eventType : String} : (r ∈ s.records.values.filter fun r =>
      r.order = order && r.eventType = some eventType && r.isObserved)
      ↔ s.Observes order eventType r := by
  simp only [List.mem_filter, Table.mem_values, Bool.and_eq_true, decide_eq_true_eq]
  constructor
  · rintro ⟨hk, ⟨ho, ht⟩, hobs⟩
    exact ⟨hk, ho, ht, hobs⟩
  · rintro ⟨hk, ho, ht, hobs⟩
    exact ⟨hk, ⟨ho, ht⟩, hobs⟩

theorem observes_of_latest? (h : s.latest? order eventType = some r) :
    s.Observes order eventType r := mem_candidates.mp (Record.mem_of_newest? h)

theorem Observes.latest? (h : s.Observes order eventType r) :
    ∃ q, s.latest? order eventType = some q := Record.newest?_ne_none (mem_candidates.mpr h)

theorem mem_paused : r ∈ s.paused ↔ (∃ key, s.find? key = some r) ∧ r.paused = true := by
  rw [paused, listPaused, Sorting.mem_sort, List.mem_filter, Table.mem_values]
  rfl

theorem mem_byOrder : r ∈ s.byOrder order ↔ (∃ key, s.find? key = some r) ∧ r.order = order := by
  rw [byOrder, listByOrder, Sorting.mem_sort, List.mem_filter, Table.mem_values, decide_eq_true_eq]
  rfl

end RecordStore

end Rendezvous
