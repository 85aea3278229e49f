/-!
# Stable sorting

Insertion sort by a relation `le`. Equal elements keep their order, the result is a permutation of
the input, and it is sorted when `le` is total and transitive.
-/

namespace Rendezvous.Sorting

variable {α : Type} (le : α → α → Bool)

/-- Puts `x` in front of the first element that it may precede, and so in front of its equals. -/
def insert (x : α) : List α → List α
  | [] => [x]
  | y :: l => if le x y then x :: y :: l else y :: insert x l

/-- Sorts by insertion. Of equal elements the one that came first stays first, which is what makes
lists of a store repeatable. -/
def sort : List α → List α
  | [] => []
  | x :: l => insert le x (sort l)

theorem insert_perm (x : α) : ∀ l : List α, (insert le x l).Perm (x :: l)
  | [] => .refl _
  | y :: l => by
    unfold insert
    split
    · exact .refl _
    · exact ((insert_perm x l).cons y).trans (.swap x y l)

theorem sort_perm : ∀ l : List α, (sort le l).Perm l
  | [] => .refl _
  | x :: l => (insert_perm le x _).trans ((sort_perm l).cons x)

theorem sort_perm_sort {l l' : List α} (h : l.Perm l') : (sort le l).Perm (sort le l') :=
  (sort_perm le l).trans (h.trans (sort_perm le l').symm)

theorem mem_sort {x : α} {l : List α} : x ∈ sort le l ↔ x ∈ l := (sort_perm le l).mem_iff

theorem sorted_insert (total : ∀ a b, le a b = true ∨ le b a = true)
    (trans : ∀ a b c, le a b = true → le b c = true → le a c = true) (x : α) :
    ∀ {l : List α}, l.Pairwise (le · ·) → (insert le x l).Pairwise (le · ·)
  | [], _ => by simp [insert]
  | y :: l, h => by
    obtain ⟨hy, hl⟩ := List.pairwise_cons.mp h
    unfold insert
    split
    · rename_i hxy
      refine List.pairwise_cons.mpr ⟨fun z hz => ?_, h⟩
      rcases List.mem_cons.mp hz with rfl | hz
      · exact hxy
      · exact trans _ _ _ hxy (hy z hz)
    · rename_i hxy
      refine List.pairwise_cons.mpr ⟨fun z hz => ?_, sorted_insert total trans x hl⟩
      rcases List.mem_cons.mp ((insert_perm le x l).mem_iff.mp hz) with rfl | hz
      · exact (total _ _).resolve_left hxy
      · exact hy z hz

theorem sorted_sort (total : ∀ a b, le a b = true ∨ le b a = true)
    (trans : ∀ a b c, le a b = true → le b c = true → le a c = true) :
    ∀ l : List α, (sort le l).Pairwise (le · ·)
  | [] => .nil
  | x :: l => sorted_insert le total trans x (sorted_sort total trans l)

end Rendezvous.Sorting
