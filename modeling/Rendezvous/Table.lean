import Rendezvous.Text.Order

/-!
# Keyed tables

A table maps strings to values. Its entries stand in key order and each key occurs once, so two
tables that answer every look-up alike are equal (`Table.ext`), and a stable sort of the values
breaks its ties by key.
-/

namespace Rendezvous

/-! ## Sorted entries -/

namespace Entries

variable {α : Type}

/-- The order every table keeps: strictly increasing keys. -/
abbrev Sorted (l : List (String × α)) : Prop := l.Pairwise (fun a b => Text.Before a.1 b.1)

/-- Writes `v` under `k`, in place of an entry already there. -/
def insert (k : String) (v : α) : List (String × α) → List (String × α)
  | [] => [(k, v)]
  | e :: l => if Text.Before k e.1 then (k, v) :: e :: l
      else if Text.Before e.1 k then e :: insert k v l
      else (k, v) :: l

theorem mem_insert {k : String} {v : α} {e : String × α} :
    ∀ {l : List (String × α)}, e ∈ insert k v l → e = (k, v) ∨ e ∈ l
  | [], h => by simp_all [insert]
  | d :: l, h => by
    unfold insert at h
    split at h
    · simpa using h
    · split at h
      · rcases List.mem_cons.mp h with h | h
        · exact .inr (by simp [h])
        · rcases mem_insert h with h | h
          · exact .inl h
          · exact .inr (by simp [h])
      · rcases List.mem_cons.mp h with h | h
        · exact .inl h
        · exact .inr (by simp [h])

theorem sorted_insert (k : String) (v : α) :
    ∀ {l : List (String × α)}, Sorted l → Sorted (insert k v l)
  | [], _ => by simp [insert, Sorted]
  | d :: l, h => by
    obtain ⟨hd, hl⟩ := List.pairwise_cons.mp h
    unfold insert
    split
    · rename_i hlt
      refine List.pairwise_cons.mpr ⟨fun e he => ?_, h⟩
      rcases List.mem_cons.mp he with rfl | he
      · exact hlt
      · exact Text.before_trans hlt (hd e he)
    · split
      · rename_i hlt
        refine List.pairwise_cons.mpr ⟨fun e he => ?_, sorted_insert k v hl⟩
        rcases mem_insert he with rfl | he
        · exact hlt
        · exact hd e he
      · rename_i h₁ h₂
        have hk : k = d.1 := Text.eq_of_not_before h₁ h₂
        exact List.pairwise_cons.mpr ⟨fun e he => hk ▸ hd e he, hl⟩

/-- The value under `k`. -/
def get? (k : String) : List (String × α) → Option α
  | [] => none
  | e :: l => if e.1 = k then some e.2 else get? k l

theorem get?_insert_self (k : String) (v : α) :
    ∀ l : List (String × α), get? k (insert k v l) = some v
  | [] => by simp [insert, get?]
  | d :: l => by
    unfold insert
    split
    · simp [get?]
    · split
      · rename_i h
        have : d.1 ≠ k := fun e => Text.before_irrefl _ (e ▸ h)
        simp [get?, this, get?_insert_self k v l]
      · simp [get?]

theorem get?_insert_ne {k j : String} (v : α) (h : j ≠ k) :
    ∀ l : List (String × α), get? j (insert k v l) = get? j l
  | [] => by simp [insert, get?, h.symm]
  | d :: l => by
    unfold insert
    split
    · simp [get?, h.symm]
    · split
      · simp [get?, get?_insert_ne v h l]
      · rename_i h₁ h₂
        have hk : k = d.1 := Text.eq_of_not_before h₁ h₂
        simp [get?, h.symm, ← hk]

theorem get?_eq_none {k : String} :
    ∀ {l : List (String × α)}, (∀ e ∈ l, e.1 ≠ k) → get? k l = none
  | [], _ => rfl
  | d :: l, h => by
    simp only [get?, h d (by simp), if_false]
    exact get?_eq_none fun e he => h e (by simp [he])

theorem mem_iff_get? {k : String} {v : α} :
    ∀ {l : List (String × α)}, Sorted l → ((k, v) ∈ l ↔ get? k l = some v)
  | [], _ => by simp [get?]
  | d :: l, h => by
    obtain ⟨hd, hl⟩ := List.pairwise_cons.mp h
    unfold get?
    split
    · rename_i hk
      constructor
      · intro hm
        rcases List.mem_cons.mp hm with rfl | hm
        · rfl
        · exact absurd (hd _ hm) (by subst hk; exact Text.before_irrefl _)
      · intro hv
        simp only [Option.some.injEq] at hv
        simp [← hk, ← hv]
    · rename_i hk
      rw [← mem_iff_get? hl]
      constructor
      · intro hm
        rcases List.mem_cons.mp hm with rfl | hm
        · exact absurd rfl hk
        · exact hm
      · intro hm; simp [hm]

theorem eq_of_get?_eq :
    ∀ {l m : List (String × α)}, Sorted l → Sorted m → (∀ k, get? k l = get? k m) → l = m
  | [], [], _, _, _ => rfl
  | [], e :: m, _, _, h => by have := h e.1; simp [get?] at this
  | d :: l, [], _, _, h => by have := h d.1; simp [get?] at this
  | d :: l, e :: m, hl, hm, h => by
    have hd := List.pairwise_cons.mp hl
    have he := List.pairwise_cons.mp hm
    have hde : d.1 = e.1 := by
      apply Text.eq_of_not_before
      · intro hlt
        have hin : (d.1, d.2) ∈ e :: m := (mem_iff_get? hm).mpr (by rw [← h]; simp [get?])
        rcases List.mem_cons.mp hin with hin | hin
        · exact Text.before_irrefl d.1 (by rw [← hin] at hlt; exact hlt)
        · exact Text.before_asymm hlt (he.1 _ hin)
      · intro hlt
        have hin : (e.1, e.2) ∈ d :: l := (mem_iff_get? hl).mpr (by rw [h]; simp [get?])
        rcases List.mem_cons.mp hin with hin | hin
        · exact Text.before_irrefl e.1 (by rw [← hin] at hlt; exact hlt)
        · exact Text.before_asymm hlt (hd.1 _ hin)
    have hv : d.2 = e.2 := by have := h d.1; simp [get?, hde] at this; exact this
    have hrest : l = m := by
      refine eq_of_get?_eq hd.2 he.2 fun k => ?_
      by_cases hk : d.1 = k
      · rw [get?_eq_none fun x hx e =>
            Text.before_irrefl k (by have := hd.1 x hx; rwa [e, hk] at this),
          get?_eq_none fun x hx e' => Text.before_irrefl k (by
            have := he.1 x hx; rwa [e', ← hde, hk] at this)]
      · have := h k
        simpa [get?, hk, hde ▸ hk] using this
    rw [hrest, Prod.ext hde hv]

end Entries

/-! ## Tables -/

/-- A table of values under texts. Its entries are sorted by key, and the table carries the proof of
it, so there is one table for each way to answer look-ups. -/
structure Table (α : Type) where
  entries : List (String × α)
  sorted : Entries.Sorted entries
deriving DecidableEq

namespace Table

variable {α β : Type}

def empty : Table α := ⟨[], .nil⟩

instance : Inhabited (Table α) := ⟨empty⟩

def get? (t : Table α) (k : String) : Option α := Entries.get? k t.entries

/-- Writes `v` under `k`; all other keys answer as before. -/
def insert (t : Table α) (k : String) (v : α) : Table α :=
  ⟨Entries.insert k v t.entries, Entries.sorted_insert k v t.sorted⟩

/-- The entries that pass `p`. They keep their order, so nothing has to be sorted again. -/
def filter (t : Table α) (p : String → α → Bool) : Table α :=
  ⟨t.entries.filter fun e => p e.1 e.2, t.sorted.filter _⟩

/-- Takes the entry under `k` away, if there is one. -/
def erase (t : Table α) (k : String) : Table α := t.filter fun j _ => j ≠ k

def mapValues (t : Table α) (f : α → β) : Table β :=
  ⟨t.entries.map fun e => (e.1, f e.2), List.pairwise_map.mpr t.sorted⟩

/-- The table of a list of pairs. Later pairs overwrite earlier ones of the same key. -/
def ofList (l : List (String × α)) : Table α := l.foldl (fun t e => t.insert e.1 e.2) empty

def contains (t : Table α) (k : String) : Bool := (t.get? k).isSome

def size (t : Table α) : Nat := t.entries.length

/-- The values, in the order of their keys. A store hands its records out in this order. -/
def values (t : Table α) : List α := t.entries.map (·.2)

theorem ext {s t : Table α} (h : ∀ k, s.get? k = t.get? k) : s = t := by
  have := Entries.eq_of_get?_eq s.sorted t.sorted h
  cases s; cases t; simp_all

@[simp] theorem get?_empty (k : String) : (empty : Table α).get? k = none := rfl

@[simp] theorem get?_insert_self (t : Table α) (k : String) (v : α) :
    (t.insert k v).get? k = some v := Entries.get?_insert_self k v _

theorem get?_insert_ne (t : Table α) {k j : String} (v : α) (h : j ≠ k) :
    (t.insert k v).get? j = t.get? j := Entries.get?_insert_ne v h _

theorem get?_insert (t : Table α) (k j : String) (v : α) :
    (t.insert k v).get? j = if j = k then some v else t.get? j := by
  split
  · subst j; exact get?_insert_self t k v
  · exact get?_insert_ne t v ‹_›

theorem mem_entries {t : Table α} {k : String} {v : α} :
    (k, v) ∈ t.entries ↔ t.get? k = some v := Entries.mem_iff_get? t.sorted

theorem nodup_keys (t : Table α) : (t.entries.map (·.1)).Nodup := by
  refine List.pairwise_map.mpr (t.sorted.imp fun {a b} hlt => ?_)
  intro heq
  exact Text.before_irrefl b.1 (heq ▸ hlt)

theorem get?_filter (t : Table α) (p : String → α → Bool) (k : String) :
    (t.filter p).get? k = (t.get? k).filter (p k) := by
  apply Option.ext
  intro v
  rw [← mem_entries, Option.filter_eq_some_iff, ← mem_entries]
  simp [filter]

@[simp] theorem get?_erase_self (t : Table α) (k : String) : (t.erase k).get? k = none := by
  simp [erase, get?_filter]

theorem get?_erase_ne (t : Table α) {k j : String} (h : j ≠ k) :
    (t.erase k).get? j = t.get? j := by
  rw [erase, get?_filter]
  cases t.get? j <;> simp [h]

theorem get?_mapValues (t : Table α) (f : α → β) (k : String) :
    (t.mapValues f).get? k = (t.get? k).map f := by
  show Entries.get? k (t.entries.map fun e => (e.1, f e.2)) = (Entries.get? k t.entries).map f
  induction t.entries with
  | nil => rfl
  | cons e l ih => simp only [List.map_cons, Entries.get?]; split <;> simp_all

end Table

end Rendezvous
