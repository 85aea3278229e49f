import Rendezvous.Key

/-!
# What a key says of its fields

A key is read by cutting it at its delimiters. Nothing in a key is escaped, so it is not enough that
no field has a delimiter in it: a colon at the end of a field makes a delimiter with the first colon
of the one that follows, and the cut comes too early. That is all that can go wrong
(`split_join_iff`): the fields are read back exactly if none but the last ends with a colon. Two
keys of two fields are the same if and only if the fields are, or a colon has moved from the end of
the first field to the start of the second.

Wherever the cuts come, a key of five fields has more of them than a key of two.
-/

namespace Rendezvous.Key

/-! ## Segments -/

/-- What stands between the delimiters of a text. Of two delimiters that overlap the first one
counts, as when a text is split from the left. -/
def segments : List Char → List (List Char)
  | [] => [[]]
  | ':' :: ':' :: l => [] :: segments l
  | c :: l => (segments l).modifyHead (c :: ·)

/-- The fields that a key is read as, by splitting it at its delimiters. -/
def split (key : String) : List String := (segments key.toList).map String.ofList

/-- The field has no delimiter in it. It may still run into the one that follows it. -/
def Undivided (field : String) : Prop := ¬ delimiter.toList <:+: field.toList

def Trails (field : String) : Prop := [':'] <:+ field.toList

instance : DecidablePred Undivided := fun _ => inferInstanceAs (Decidable (¬ _))

instance : DecidablePred Trails := fun _ => inferInstanceAs (Decidable (_ <:+ _))

theorem segments_delimiter (l : List Char) : segments (':' :: ':' :: l) = [] :: segments l := rfl

theorem segments_cons {c : Char} {l : List Char} (h : ¬ [':', ':'] <+: c :: l) :
    segments (c :: l) = (segments l).modifyHead (c :: ·) := by
  rw [segments]
  rintro t rfl rfl
  exact h ⟨t, rfl⟩

theorem segments_of_undivided {l : List Char} (h : ¬ [':', ':'] <:+: l) : segments l = [l] := by
  induction l with
  | nil => rfl
  | cons c l ih =>
      rw [List.infix_cons_iff, not_or] at h
      rw [segments_cons h.1, ih h.2, List.modifyHead_cons]

/-- A text is cut behind the first of its fields if the delimiter there is the first in it. By
induction on the field, whose first two characters are the same with the whole delimiter behind
it. -/
theorem segments_append {l : List Char} (h : ¬ [':', ':'] <:+: l ++ [':']) (t : List Char) :
    segments (l ++ ':' :: ':' :: t) = l :: segments t := by
  induction l with
  | nil => exact segments_delimiter t
  | cons c l ih =>
      rw [List.cons_append, List.infix_cons_iff, not_or] at h
      obtain ⟨hfirst, hrest⟩ := h
      have hcut : ¬ [':', ':'] <+: c :: (l ++ ':' :: ':' :: t) := by
        intro hp
        apply hfirst
        rw [List.cons_prefix_cons] at hp ⊢
        cases l with
        | nil => exact ⟨hp.1, List.prefix_rfl⟩
        | cons d l =>
            rw [List.cons_append, List.cons_prefix_cons] at hp ⊢
            exact ⟨hp.1, hp.2.1, List.nil_prefix⟩
      rw [List.cons_append, segments_cons hcut, ih hrest, List.modifyHead_cons]

/-- A delimiter in a text that a colon follows stands in the text, or that colon completes it. -/
theorem infix_concat_colon {l : List Char} :
    [':', ':'] <:+: l ++ [':'] ↔ [':', ':'] <:+: l ∨ [':'] <:+ l := by
  rw [List.infix_concat_iff, or_comm]
  refine or_congr Iff.rfl ?_
  rw [List.suffix_concat_iff]
  constructor
  · rintro (h | ⟨t, ht, hsuffix⟩)
    · cases h
    · have hcolon : [':'] ++ [':'] = t ++ [':'] := ht
      rw [List.append_cancel_right_eq] at hcolon
      rw [hcolon]
      exact hsuffix
  · intro h
    exact .inr ⟨[':'], rfl, h⟩

theorem intercalate_cons (l m : List Char) (ls : List (List Char)) :
    [':', ':'].intercalate (l :: m :: ls)
      = l ++ ':' :: ':' :: [':', ':'].intercalate (m :: ls) := by
  rw [List.intercalate_cons_cons, List.append_assoc]
  rfl

/-- A text gives back what it was joined from if no colon stands before a delimiter. Where one does,
the cut comes before the colon and the segment is shorter than its field. -/
theorem segments_intercalate_iff {l : List Char} {ls : List (List Char)}
    (h : ∀ m ∈ l :: ls, ¬ [':', ':'] <:+: m) :
    segments ([':', ':'].intercalate (l :: ls)) = l :: ls
      ↔ ∀ m ∈ (l :: ls).dropLast, ¬ [':'] <:+ m := by
  induction ls generalizing l with
  | nil =>
      rw [List.intercalate_singleton, segments_of_undivided (h l List.mem_cons_self)]
      simp
  | cons m ls ih =>
      rw [List.forall_mem_cons] at h
      obtain ⟨hl, hrest⟩ := h
      rw [intercalate_cons, List.dropLast_cons_cons, List.forall_mem_cons]
      by_cases htrails : [':'] <:+ l
      · obtain ⟨g, rfl⟩ := htrails
        have hg : ¬ [':', ':'] <:+: g ++ [':'] := hl
        refine iff_of_false ?_ (fun hall => hall.1 (List.suffix_append g [':']))
        intro heq
        rw [List.append_assoc] at heq
        change segments (g ++ ':' :: ':' :: _) = _ at heq
        rw [segments_append hg, List.cons.injEq] at heq
        have hlength := congrArg List.length heq.1
        rw [List.length_append, List.length_singleton] at hlength
        omega
      · have hcut : ¬ [':', ':'] <:+: l ++ [':'] := by
          rw [infix_concat_colon]
          rintro (hin | hsuffix)
          · exact hl hin
          · exact htrails hsuffix
        rw [segments_append hcut, List.cons.injEq, ih hrest]
        exact and_congr_left fun _ => iff_of_true rfl htrails

/-! ## How many segments there are -/

/-- One more character before a text gives it one segment more at most, and none less. Where it
makes a delimiter with the next one, that one might have begun a delimiter before. -/
theorem length_segments_cons (c : Char) (l : List Char) :
    (segments l).length ≤ (segments (c :: l)).length
      ∧ (segments (c :: l)).length ≤ (segments l).length + 1 := by
  induction l generalizing c with
  | nil =>
      have hc : ¬ [':', ':'] <+: [c] := by simp
      rw [segments_cons hc, List.length_modifyHead]
      exact ⟨Nat.le_refl _, Nat.le_succ _⟩
  | cons d l ih =>
      by_cases hcut : [':', ':'] <+: c :: d :: l
      · rw [List.cons_prefix_cons, List.cons_prefix_cons] at hcut
        obtain ⟨rfl, rfl, -⟩ := hcut
        obtain ⟨hle, hge⟩ := ih ':'
        rw [segments_delimiter, List.length_cons]
        omega
      · rw [segments_cons hcut, List.length_modifyHead]
        exact ⟨Nat.le_refl _, Nat.le_succ _⟩

theorem length_segments_append (l t : List Char) :
    (segments t).length ≤ (segments (l ++ t)).length := by
  induction l with
  | nil => exact Nat.le_refl _
  | cons c l ih => exact Nat.le_trans ih (length_segments_cons c (l ++ t)).1

/-- There are no fewer segments than fields, wherever the colons stand. -/
theorem length_le_length_segments (l : List Char) (ls : List (List Char)) :
    (l :: ls).length ≤ (segments ([':', ':'].intercalate (l :: ls))).length := by
  induction ls generalizing l with
  | nil =>
      rw [List.intercalate_singleton]
      have hone := length_segments_append l []
      rw [List.append_nil] at hone
      exact hone
  | cons m ls ih =>
      rw [intercalate_cons]
      refine Nat.le_trans (Nat.succ_le_succ (ih m)) ?_
      exact length_segments_append l (':' :: ':' :: [':', ':'].intercalate (m :: ls))

/-- Of two fields there are three segments at most. -/
theorem length_segments_pair {l m : List Char} (hl : ¬ [':', ':'] <:+: l)
    (hm : ¬ [':', ':'] <:+: m) : (segments (l ++ ':' :: ':' :: m)).length ≤ 3 := by
  by_cases htrails : [':'] <:+ l
  · obtain ⟨g, rfl⟩ := htrails
    rw [List.append_assoc]
    change (segments (g ++ ':' :: ':' :: ':' :: m)).length ≤ 3
    have hmore := (length_segments_cons ':' m).2
    rw [segments_of_undivided hm, List.length_singleton] at hmore
    rw [segments_append hl, List.length_cons]
    omega
  · have hcut : ¬ [':', ':'] <:+: l ++ [':'] := by
      rw [infix_concat_colon, not_or]
      exact ⟨hl, htrails⟩
    rw [segments_append hcut, segments_of_undivided hm]
    exact Nat.le_succ 2

/-! ## Keys -/

theorem toList_join (field : String) (fields : List String) : (join (field :: fields)).toList
    = [':', ':'].intercalate (field.toList :: fields.map String.toList) := by
  rw [join, String.toList_intercalate]
  rfl

theorem toList_forOrder (order eventType : String) : (forOrder order eventType).toList
    = order.toList ++ ':' :: ':' :: eventType.toList := by
  rw [forOrder, toList_join, List.map_cons, List.map_nil, intercalate_cons,
    List.intercalate_singleton]

theorem split_eq_iff {key : String} {fields : List String} :
    split key = fields ↔ segments key.toList = fields.map String.toList := by
  constructor
  · rintro rfl
    simp [split, Function.comp_def]
  · intro h
    simp [split, h, Function.comp_def]

/-- A key gives back its fields if none but the last ends with a colon, and only then. -/
theorem split_join_iff {field : String} {fields : List String}
    (h : ∀ f ∈ field :: fields, Undivided f) :
    split (join (field :: fields)) = field :: fields
      ↔ ∀ f ∈ (field :: fields).dropLast, ¬ Trails f := by
  have hlists : ∀ m ∈ field.toList :: fields.map String.toList, ¬ [':', ':'] <:+: m := by
    rw [← List.map_cons, List.forall_mem_map]
    exact h
  rw [split_eq_iff, toList_join, List.map_cons, segments_intercalate_iff hlists, ← List.map_cons,
    ← List.map_dropLast, List.forall_mem_map]
  rfl

/-! ## Keys of two fields -/

/-- What stands before the first delimiter, and what stands behind it. -/
theorem append_delimiter_inj {l l' m m' : List Char} (hl : ¬ [':', ':'] <:+: l ++ [':'])
    (hl' : ¬ [':', ':'] <:+: l' ++ [':']) (h : l ++ ':' :: ':' :: m = l' ++ ':' :: ':' :: m') :
    l = l' ∧ m = m' := by
  have hsegments := congrArg segments h
  rw [segments_append hl, segments_append hl', List.cons.injEq] at hsegments
  obtain ⟨rfl, -⟩ := hsegments
  rw [List.append_cancel_left_eq] at h
  exact ⟨rfl, (List.cons.inj (List.cons.inj h).2).2⟩

/-- The field can be told from the delimiter that follows it, since it has no colon at all. -/
def Plain (field : String) : Prop := ':' ∉ field.toList

theorem Plain.not_infix {field : String} (h : Plain field) :
    ¬ [':', ':'] <:+: field.toList ++ [':'] := by
  rw [infix_concat_colon]
  rintro (hin | hsuffix)
  · exact h (hin.subset List.mem_cons_self)
  · exact h (hsuffix.subset List.mem_cons_self)

/-- Of a plain order the key gives back both fields. -/
theorem forOrder_inj {o o' t t' : String} (ho : Plain o) (ho' : Plain o')
    (h : forOrder o t = forOrder o' t') : o = o' ∧ t = t' := by
  have hlist : o.toList ++ ':' :: ':' :: t.toList = o'.toList ++ ':' :: ':' :: t'.toList := by
    rw [← toList_forOrder, ← toList_forOrder, h]
  obtain ⟨horder, htype⟩ := append_delimiter_inj ho.not_infix ho'.not_infix hlist
  exact ⟨String.toList_inj.mp horder, String.toList_inj.mp htype⟩

/-- A colon at the end of the first field `a` has moved to the start of the second, which leaves the
key as it was. -/
def Moved (a b a' b' : String) : Prop := a = a' ++ ":" ∧ b' = ":" ++ b

theorem moved_iff {a b a' b' : String} : Moved a b a' b'
    ↔ a.toList = a'.toList ++ [':'] ∧ b'.toList = ':' :: b.toList := by
  rw [Moved, ← String.toList_inj, ← String.toList_inj, String.toList_append, String.toList_append]
  rfl

/-- A field that reaches into the delimiter behind it takes one colon of it, and the next field
begins with the other. -/
theorem overhang {l d m m' : List Char} (hl : ¬ [':', ':'] <:+: l ++ d)
    (h : ':' :: ':' :: m = d ++ ':' :: ':' :: m') : d = [] ∨ d = [':'] ∧ m = ':' :: m' := by
  match d with
  | [] => exact .inl rfl
  | [c] =>
      simp only [List.cons_append, List.nil_append, List.cons.injEq] at h
      obtain ⟨rfl, -, hm⟩ := h
      exact .inr ⟨rfl, hm⟩
  | c :: c' :: d =>
      simp only [List.cons_append, List.cons.injEq] at h
      obtain ⟨rfl, rfl, -⟩ := h
      exact absurd ⟨l, d, by simp⟩ hl

/-- Two keys of two fields are the same if the fields are, or if a colon has moved from one field
to the other. -/
theorem join_pair_eq_iff {a b a' b' : String} (ha : Undivided a) (ha' : Undivided a') :
    join [a, b] = join [a', b'] ↔ (a = a' ∧ b = b') ∨ Moved a b a' b' ∨ Moved a' b' a b := by
  have htexts : join [a, b] = join [a', b']
      ↔ a.toList ++ ':' :: ':' :: b.toList = a'.toList ++ ':' :: ':' :: b'.toList := by
    rw [← String.toList_inj]
    exact (toList_forOrder a b ▸ toList_forOrder a' b' ▸ Iff.rfl)
  rw [htexts, moved_iff, moved_iff, ← String.toList_inj, ← String.toList_inj]
  constructor
  · intro h
    rcases List.append_eq_append_iff.mp h with ⟨d, hd, hrest⟩ | ⟨d, hd, hrest⟩
    · have hin : ¬ [':', ':'] <:+: a.toList ++ d := hd ▸ ha'
      rcases overhang hin hrest with rfl | ⟨rfl, hb⟩
      · rw [List.append_nil] at hd
        rw [List.nil_append, List.cons.injEq, List.cons.injEq] at hrest
        exact .inl ⟨hd.symm, hrest.2.2⟩
      · exact .inr (.inr ⟨hd, hb⟩)
    · have hin : ¬ [':', ':'] <:+: a'.toList ++ d := hd ▸ ha
      rcases overhang hin hrest with rfl | ⟨rfl, hb⟩
      · rw [List.append_nil] at hd
        rw [List.nil_append, List.cons.injEq, List.cons.injEq] at hrest
        exact .inl ⟨hd, hrest.2.2.symm⟩
      · exact .inr (.inl ⟨hd, hb⟩)
  · rintro (⟨h, h'⟩ | ⟨h, h'⟩ | ⟨h, h'⟩)
    · rw [h, h']
    · rw [h, h', List.append_assoc]
      rfl
    · rw [h, h', List.append_assoc]
      rfl

/-! ## Keys of both shapes -/

/-- However the colons stand, a key of two fields is never one of five: it has three segments at
most, and the other has five at the least. -/
theorem forOrder_ne_forWait {o t : String} (ho : Undivided o) (ht : Undivided t)
    (feature line exampleRow order eventType : String) :
    forOrder o t ≠ forWait feature line exampleRow order eventType := by
  intro h
  have hpair := length_segments_pair ho ht
  rw [← toList_forOrder, h, forWait, toList_join] at hpair
  have hfive := length_le_length_segments feature.toList
    ([line, exampleRow, order, eventType].map String.toList)
  have hlength := Nat.le_trans hfive hpair
  simp at hlength

/-- **When keys identify their fields.** Let no field have a delimiter in it. A key that a step
waits under is read back as its fields exactly if none of them but the type ends with a colon; then
no other fields like these have the same key. The key of an order or a scenario is read back
exactly if its first field does not end with a colon, and two such keys are the same exactly if
their fields are, or a colon has moved between them. No key of an order is one that a step waits
under, whatever the colons. -/
theorem fields_recovered_iff {f l x o t a b : String}
    (hwait : ∀ field ∈ [f, l, x, o, t], Undivided field)
    (hpair : ∀ field ∈ [a, b], Undivided field) :
    (split (forWait f l x o t) = [f, l, x, o, t] ↔ ∀ field ∈ [f, l, x, o], ¬ Trails field)
    ∧ ((∀ field ∈ [f, l, x, o], ¬ Trails field) → ∀ f' l' x' o' t' : String,
        (∀ field ∈ [f', l', x', o', t'], Undivided field) →
        (∀ field ∈ [f', l', x', o'], ¬ Trails field) →
        forWait f l x o t = forWait f' l' x' o' t' → [f, l, x, o, t] = [f', l', x', o', t'])
    ∧ (∀ key ∈ [forOrder, forScenario], (split (key a b) = [a, b] ↔ ¬ Trails a)
        ∧ ∀ a' b' : String, Undivided a' → Undivided b' →
          (key a b = key a' b' ↔ (a = a' ∧ b = b') ∨ Moved a b a' b' ∨ Moved a' b' a b))
    ∧ forOrder a b ≠ forWait f l x o t := by
  have ha : Undivided a := hpair a List.mem_cons_self
  have hb : Undivided b := hpair b (List.mem_cons_of_mem _ List.mem_cons_self)
  refine ⟨?read, ?same, ?pairs, ?apart⟩
  case read => exact split_join_iff hwait
  case same =>
    intro hclosed f' l' x' o' t' hwait' hclosed' h
    have hread : split (forWait f l x o t) = _ := (split_join_iff hwait).mpr hclosed
    have hread' : split (forWait f' l' x' o' t') = _ := (split_join_iff hwait').mpr hclosed'
    rw [← hread, h, hread']
  case pairs =>
    intro key hkey
    have hjoin : ∀ a b, key a b = join [a, b] := by
      simp only [List.mem_cons, List.not_mem_nil, or_false] at hkey
      rcases hkey with rfl | rfl <;> exact fun _ _ => rfl
    refine ⟨?_, fun a' b' ha' _ => ?_⟩
    · rw [hjoin, split_join_iff hpair]
      simp
    · rw [hjoin, hjoin]
      exact join_pair_eq_iff ha ha'
  case apart => exact forOrder_ne_forWait ha hb f l x o t

/-- A step without a row of examples, and a scenario with one, with colons where they do no
harm. -/
theorem blank_row_recovered :
    (∀ field ∈ [":checkout", "4:2", "", "ORD1", ":SHIPPED:"], Undivided field)
    ∧ (∀ field ∈ [":checkout", "4:2", "", "ORD1"], ¬ Trails field)
    ∧ split (forWait ":checkout" "4:2" "" "ORD1" ":SHIPPED:")
      = [":checkout", "4:2", "", "ORD1", ":SHIPPED:"]
    ∧ (∀ field ∈ ["Ship", "row:"], Undivided field)
    ∧ split (forScenario "Ship" "row:") = ["Ship", "row:"]
    ∧ forScenario "Ship" "row:" ≠ forScenario "Ship" ":row"
    ∧ forOrder "Ship" "row:" ≠ forWait ":checkout" "4:2" "" "ORD1" ":SHIPPED:" := by
  have hwait : ∀ field ∈ [":checkout", "4:2", "", "ORD1", ":SHIPPED:"], Undivided field := by
    decide +kernel
  have hclosed : ∀ field ∈ [":checkout", "4:2", "", "ORD1"], ¬ Trails field := by decide +kernel
  have hpair : ∀ field ∈ ["Ship", "row:"], Undivided field := by decide +kernel
  obtain ⟨hread, -, hpairs, hapart⟩ := fields_recovered_iff hwait hpair
  obtain ⟨hscenario, hsame⟩ := hpairs forScenario (List.mem_cons_of_mem _ List.mem_cons_self)
  refine ⟨hwait, hclosed, hread.mpr hclosed, hpair, hscenario.mpr (by decide +kernel),
    fun h => ?_, hapart⟩
  rcases (hsame "Ship" ":row" (by decide +kernel) (by decide +kernel)).mp h with h | h | h
  · exact absurd h (by decide +kernel)
  · exact absurd h.1 (by decide +kernel)
  · exact absurd h.1 (by decide +kernel)

/-- Two scenarios have one key, and so have the waits of two steps, though no field has a delimiter
in it; the fields that are read back are not those that the keys were made of. -/
theorem colon_misread :
    (∀ field ∈ ["Ship:", "row", "Ship", ":row", "checkout:", "42", "checkout", ":42", "", "ORD1",
        "SHIPPED"], Undivided field)
    ∧ forScenario "Ship:" "row" = forScenario "Ship" ":row"
    ∧ split (forScenario "Ship:" "row") = ["Ship", ":row"]
    ∧ forWait "checkout:" "42" "" "ORD1" "SHIPPED" = forWait "checkout" ":42" "" "ORD1" "SHIPPED"
    ∧ split (forWait "checkout:" ":42" "" "ORD1" "SHIPPED")
      = ["checkout", "", "42", "", "ORD1", "SHIPPED"] := by
  decide +kernel

end Rendezvous.Key
