import Rendezvous.Proofs.Lookup

/-!
# Ties

A store keeps its records by key and promises no order in which it hands them out. Each query
sorts what it is handed, or takes the greatest of it, so that another order can show in the answer
only where records tie: they are the same records, at the same times, and of records with the same
time another one may come first, or be the one that is taken (`answers_but_for_ties`). Where no two
records have the same time there is one answer only (`latestOf?_eq`, `listByOrder_eq`,
`listPaused_eq`).

That is why the queries of `RecordStore` may go by key, as they do here.
-/

namespace Rendezvous

/-! ## Sorted lists and their order -/

namespace Sorting

variable {α β : Type} {f : α → β} {le : β → β → Bool} {l l' : List α}

/-- Sorted by what `f` says of them, two arrangements of the same elements say the same from front
to back: what is sorted is determined by its elements, and it is only `f` that is compared. -/
theorem map_sort_of_perm (total : ∀ a b, le a b = true ∨ le b a = true)
    (trans : ∀ a b c, le a b = true → le b c = true → le a c = true)
    (antisymm : ∀ a b, le a b = true → le b a = true → a = b) (h : l.Perm l') :
    (sort (fun a b => le (f a) (f b)) l).map f = (sort (fun a b => le (f a) (f b)) l').map f := by
  have hsorted (l : List α) :
      ((sort (fun a b => le (f a) (f b)) l).map f).Pairwise fun a b => le a b = true :=
    List.pairwise_map.mpr (sorted_sort _ (fun a b => total (f a) (f b))
      (fun a b c => trans (f a) (f b) (f c)) l)
  exact List.Perm.eq_of_pairwise (fun a b _ _ => antisymm a b) (hsorted l) (hsorted l')
    ((sort_perm_sort _ h).map f)

/-- Where `f` tells the elements apart, there is one way to sort them, whatever order they are
handed out in. -/
theorem sort_eq_of_perm (total : ∀ a b, le a b = true ∨ le b a = true)
    (trans : ∀ a b c, le a b = true → le b c = true → le a c = true)
    (antisymm : ∀ a b, le a b = true → le b a = true → a = b)
    (hf : ∀ a ∈ l, ∀ b ∈ l, f a = f b → a = b) (h : l.Perm l') :
    sort (fun a b => le (f a) (f b)) l = sort (fun a b => le (f a) (f b)) l' := by
  have hsorted (l : List α) := sorted_sort (fun a b => le (f a) (f b))
    (fun a b => total (f a) (f b)) (fun a b c => trans (f a) (f b) (f c)) l
  refine List.Perm.eq_of_pairwise (fun a b ha hb hab hba => ?_) (hsorted l) (hsorted l')
    (sort_perm_sort _ h)
  exact hf a ((mem_sort _).mp ha) b (h.mem_iff.mpr ((mem_sort _).mp hb)) (antisymm _ _ hab hba)

end Sorting

/-! ## Times -/

namespace Instant

theorem decide_le_total (s t : Instant) :
    decide (s ≤ t) = true ∨ decide (t ≤ s) = true :=
  (le_total s t).imp decide_eq_true decide_eq_true

theorem decide_le_trans (s t u : Instant) (h : decide (s ≤ t) = true)
    (h' : decide (t ≤ u) = true) : decide (s ≤ u) = true :=
  decide_eq_true (le_trans (of_decide_eq_true h) (of_decide_eq_true h'))

theorem decide_le_antisymm (s t : Instant) (h : decide (s ≤ t) = true)
    (h' : decide (t ≤ s) = true) : s = t :=
  le_antisymm (of_decide_eq_true h) (of_decide_eq_true h')

end Instant

namespace Record

theorem timeLe_antisymm : ∀ s t : Option Instant, timeLe s t = true → timeLe t s = true → s = t
  | none, none, _, _ => rfl
  | none, some _, _, h => by cases h
  | some _, none, h, _ => by cases h
  | some _, some _, h, h' =>
      congrArg some (Instant.le_antisymm (of_decide_eq_true h) (of_decide_eq_true h'))

/-- What is found in one order has its match in any other: a record of the same time is found. -/
theorem exists_newest?_of_perm {l l' : List Record} {r : Record} (h : l.Perm l')
    (hr : newest? l = some r) :
    ∃ q ∈ l, newest? l' = some q ∧ r.observedAt = q.observedAt := by
  have hmem := h.mem_iff.mp (mem_of_newest? hr)
  obtain ⟨q, hq⟩ := newest?_ne_none hmem
  have hmem' := h.mem_iff.mpr (mem_of_newest? hq)
  exact ⟨q, hmem', hq, timeLe_antisymm _ _ (timeLe_of_newest? hq r hmem)
    (timeLe_of_newest? hr q hmem')⟩

/-- In whatever order records are looked through, the time of the newest is the same. Which record
of that time it is may differ. -/
theorem newest?_of_perm {l l' : List Record} (h : l.Perm l') :
    (newest? l).map (·.observedAt) = (newest? l').map (·.observedAt) := by
  cases hr : newest? l with
  | none =>
      cases hq : newest? l' with
      | none => rfl
      | some q =>
          obtain ⟨r, -, hr', -⟩ := exists_newest?_of_perm h.symm hq
          cases hr.symm.trans hr'
  | some r =>
      obtain ⟨q, -, hq, htime⟩ := exists_newest?_of_perm h hr
      rw [hq]
      exact congrArg some htime

/-- Where no two records have the same time, it is the same record. -/
theorem newest?_eq_of_perm {l l' : List Record}
    (hl : ∀ r ∈ l, ∀ q ∈ l, r.observedAt = q.observedAt → r = q) (h : l.Perm l') :
    newest? l = newest? l' := by
  cases hr : newest? l with
  | none =>
      have htimes := newest?_of_perm h
      rw [hr] at htimes
      exact (Option.map_eq_none_iff.mp htimes.symm).symm
  | some r =>
      obtain ⟨q, hq, hfound, htime⟩ := exists_newest?_of_perm h hr
      rw [hfound]
      exact congrArg some (hl r (mem_of_newest? hr) q hq htime)

end Record

/-! ## Queries -/

namespace RecordStore

variable {s : RecordStore} {l : List Record} {order eventType : String}

theorem latestOf?_eq (hs : ∀ r q, s.Observes order eventType r → s.Observes order eventType q →
      r.observedAt = q.observedAt → r = q) (h : l.Perm s.records.values) :
    latestOf? l order eventType = s.latest? order eventType := by
  refine (Record.newest?_eq_of_perm (fun r hr q hq => ?_) (h.symm.filter _)).symm
  exact hs r q (mem_candidates.mp hr) (mem_candidates.mp hq)

theorem listByOrder_eq (hs : ∀ r ∈ s.byOrder order, ∀ q ∈ s.byOrder order,
      r.recordedAt = q.recordedAt → r = q) (h : l.Perm s.records.values) :
    listByOrder l order = s.byOrder order := by
  refine (Sorting.sort_eq_of_perm Instant.decide_le_total Instant.decide_le_trans
    Instant.decide_le_antisymm (fun r hr q hq => ?_) (h.symm.filter _)).symm
  exact hs r ((Sorting.mem_sort _).mpr hr) q ((Sorting.mem_sort _).mpr hq)

theorem listPaused_eq (hs : ∀ r ∈ s.paused, ∀ q ∈ s.paused,
      r.firstPaused = q.firstPaused → r = q) (h : l.Perm s.records.values) :
    listPaused l = s.paused := by
  refine (Sorting.sort_eq_of_perm Record.timeLe_total Record.timeLe_trans Record.timeLe_antisymm
    (fun r hr q hq => ?_) (h.symm.filter _)).symm
  exact hs r ((Sorting.mem_sort _).mpr hr) q ((Sorting.mem_sort _).mpr hq)

/-- **The order in which records are handed out shows only in ties.** Whatever that order is, the
latest observation has the same time, and the two lists have the same records, with the same times
from front to back. -/
theorem answers_but_for_ties (s : RecordStore) (order eventType : String)
    (h : l.Perm s.records.values) :
    (latestOf? l order eventType).map (·.observedAt)
        = (s.latest? order eventType).map (·.observedAt)
      ∧ ((listByOrder l order).Perm (s.byOrder order)
        ∧ (listByOrder l order).map (·.recordedAt) = (s.byOrder order).map (·.recordedAt))
      ∧ (listPaused l).Perm s.paused
        ∧ (listPaused l).map (·.firstPaused) = s.paused.map (·.firstPaused) := by
  refine ⟨Record.newest?_of_perm (h.filter _), ⟨Sorting.sort_perm_sort _ (h.filter _), ?byOrder⟩,
    Sorting.sort_perm_sort _ (h.filter _), ?paused⟩
  case byOrder =>
    exact Sorting.map_sort_of_perm Instant.decide_le_total Instant.decide_le_trans
      Instant.decide_le_antisymm (h.filter _)
  case paused =>
    exact Sorting.map_sort_of_perm Record.timeLe_total Record.timeLe_trans Record.timeLe_antisymm
      (h.filter _)

end RecordStore

end Rendezvous
