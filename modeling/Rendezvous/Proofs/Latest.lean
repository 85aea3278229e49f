import Rendezvous.Proofs.Fields
import Rendezvous.Proofs.Lifecycle
import Rendezvous.Proofs.Lookup

/-!
# What the latest event is

A look-up of an order and type answers with the newest of the records that are kept. An adapter
saves each event under the key of its order and type, and a record that is no wait is overwritten by
every event that is saved under its key, whatever the times of the two. So one record is kept for
each order and type, and what it shows is the event saved last (`latest_is_last`). That is the
newest one if the events were saved in the order of their times; one that comes late takes the
place of a newer one (`late_event_found`).
-/

namespace Rendezvous

namespace Record

def isOf (e : Record) (order eventType : String) : Bool :=
  e.order = order && e.eventType = some eventType

/-- An event as adapters file it: with a time, and under the key of its order and type, where the
order can be told from the type. -/
structure Filed (e : Record) : Prop where
  observed : e.isObserved = true
  plain : Key.Plain e.order
  key_eq : ∃ t, e.eventType = some t ∧ e.key = Key.forOrder e.order t

theorem Filed.isOf_iff {e : Record} (h : e.Filed) {order eventType : String}
    (ho : Key.Plain order) :
    e.isOf order eventType = true ↔ e.key = Key.forOrder order eventType := by
  obtain ⟨t, ht, hkey⟩ := h.key_eq
  rw [isOf, Bool.and_eq_true, decide_eq_true_eq, decide_eq_true_eq, hkey, ht]
  constructor
  · rintro ⟨rfl, ht'⟩
    rw [Option.some.inj ht']
  · intro hinj
    obtain ⟨rfl, rfl⟩ := Key.forOrder_inj h.plain ho hinj
    exact ⟨rfl, rfl⟩

/-- The record is no wait and shows the event `e`. It may have been recorded at another time and say
more than the event did. -/
structure Shows (r e : Record) : Prop where
  unpaused : r.paused = false
  order_eq : r.order = e.order
  type_eq : r.eventType = e.eventType
  observedAt_eq : r.observedAt = e.observedAt
  payload_eq : r.payload = e.payload

theorem shows_fresh (e : Record) : e.fresh.Shows e := ⟨rfl, rfl, rfl, rfl, rfl⟩

/-- An event is taken over whole, unless it meets a wait. -/
theorem shows_merge {r e : Record} (hr : r.paused = false) (he : e.isObserved = true) :
    (r.merge e).Shows e := by
  rw [merge_eq_of_not_paused e hr]
  refine ⟨hr, rfl, rfl, ?_, rfl⟩
  obtain ⟨t, ht⟩ := Option.isSome_iff_exists.mp he
  change (e.observedAt <|> r.observedAt) = e.observedAt
  rw [ht]
  rfl

end Record

/-! ## What is kept of saved events -/

namespace RecordStore

/-- The store after the events were saved, the first one first, with nothing else done to it. -/
def ofSaves (es : List Record) : RecordStore := ofWrites (es.map .save)

theorem ofSaves_concat (es : List Record) (e : Record) :
    ofSaves (es ++ [e]) = (ofSaves es).save e := by
  rw [ofSaves, List.map_append]
  exact ofWrites_concat _ _

/-- What was saved under the key, the first event first. The last of them is what the record there
shows. -/
def savedUnder (es : List Record) (key : String) : List Record := es.filter (·.key = key)

theorem savedUnder_concat (es : List Record) (e : Record) (key : String) :
    savedUnder (es ++ [e]) key = savedUnder es key ++ if e.key = key then [e] else [] := by
  rw [savedUnder, List.filter_append]
  by_cases h : e.key = key <;> simp [savedUnder, h]

/-- Each key keeps a record that shows the event saved last under it. By induction on the last save;
a record that is there already shows an event, so it is no wait and is overwritten. -/
theorem shows_ofSaves {es : List Record} (hes : ∀ e ∈ es, e.isObserved = true) (key : String) :
    Option.Rel Record.Shows ((ofSaves es).find? key) (savedUnder es key).getLast? := by
  induction es using List.reverseRecOn with
  | nil => exact Option.Rel.none
  | append_singleton es e ih =>
      have hes' : ∀ d ∈ es, d.isObserved = true := fun d hd => hes d (List.mem_append_left _ hd)
      have he : e.isObserved = true := hes e (by simp)
      have hpast := ih hes'
      rw [ofSaves_concat, find?_save, savedUnder_concat]
      by_cases hkey : e.key = key
      · subst hkey
        rw [if_pos rfl, if_pos rfl, List.getLast?_concat]
        refine Option.Rel.some ?_
        cases hr : (ofSaves es).find? e.key with
        | none => exact e.shows_fresh
        | some r =>
            rw [hr] at hpast
            generalize (savedUnder es e.key).getLast? = last at hpast
            cases hpast with
            | some hshows => exact Record.shows_merge hshows.unpaused he
      · rw [if_neg (Ne.symm hkey), if_neg hkey, List.append_nil]
        exact hpast

/-- What is kept under a key shows an event that was saved under the key. -/
theorem shows_of_find? {es : List Record} (hes : ∀ e ∈ es, e.isObserved = true) {key : String}
    {r : Record} (hr : (ofSaves es).find? key = some r) :
    ∃ e ∈ es, e.key = key ∧ r.Shows e := by
  have hkept := shows_ofSaves hes key
  rw [hr] at hkept
  generalize hlast : (savedUnder es key).getLast? = last at hkept
  cases hkept with
  | @some _ e hshows =>
      have hmem : e ∈ savedUnder es key := List.mem_of_getLast? hlast
      obtain ⟨he, hkey⟩ := List.mem_filter.mp hmem
      exact ⟨e, he, by simpa using hkey, hshows⟩

/-! ## What a look-up answers -/

/-- The events of a plain order and a type are those saved under the key of the two. -/
theorem savedUnder_forOrder {es : List Record} (hes : ∀ e ∈ es, e.Filed) {order : String}
    (ho : Key.Plain order) (eventType : String) :
    savedUnder es (Key.forOrder order eventType) = es.filter (·.isOf order eventType) := by
  refine List.filter_congr fun e he => ?_
  have hiff : e.isOf order eventType = true ↔ e.key = Key.forOrder order eventType :=
    (hes e he).isOf_iff ho
  by_cases hkey : e.key = Key.forOrder order eventType
  · rw [hiff.mpr hkey, decide_eq_true hkey]
  · rw [decide_eq_false hkey]
    exact (Bool.eq_false_iff.mpr fun h => hkey (hiff.mp h)).symm

/-- The record that shows the event saved last under a key is the one kept there. -/
theorem find?_of_getLast? {es : List Record} (hes : ∀ e ∈ es, e.isObserved = true) {key : String}
    {last : Record} (hlast : (savedUnder es key).getLast? = some last) :
    ∃ r, (ofSaves es).find? key = some r ∧ r.Shows last := by
  have hkept := shows_ofSaves hes key
  rw [hlast] at hkept
  generalize (ofSaves es).find? key = found at hkept
  cases hkept with
  | @some r _ hshows => exact ⟨r, rfl, hshows⟩

/-- There is one observation of the order and type at most, under the key of the two, since adapters
file events there and nowhere else. -/
theorem find?_of_observes {es : List Record} (hes : ∀ e ∈ es, e.Filed) {order eventType : String}
    (ho : Key.Plain order) {r : Record} (h : (ofSaves es).Observes order eventType r) :
    (ofSaves es).find? (Key.forOrder order eventType) = some r := by
  obtain ⟨⟨key, hkey⟩, horder, htype, -⟩ := h
  obtain ⟨e, he, hekey, hshows⟩ := shows_of_find? (fun e he => (hes e he).observed) hkey
  have hof : e.isOf order eventType = true := by
    simp [Record.isOf, ← hshows.order_eq, ← hshows.type_eq, horder, htype]
  have hsame : e.key = Key.forOrder order eventType := ((hes e he).isOf_iff ho).mp hof
  rw [← hsame, hekey]
  exact hkey

/-- **The latest event is the one saved last.** Events with a time are saved, each under the key of
its order and type, in any order and as often as one likes, and at least one of them is of the order
and type asked for. Then the look-up answers with an observation that has the time and the payload
of the event of that order and type saved last. No event of the order and type is newer exactly if
none saved before that one is. -/
theorem latest_is_last {es : List Record} (hes : ∀ e ∈ es, e.Filed) {order eventType : String}
    (hsaved : ∃ e ∈ es, e.isOf order eventType = true) :
    ∃ earlier last r, es.filter (·.isOf order eventType) = earlier ++ [last]
      ∧ (ofSaves es).latest? order eventType = some r
      ∧ r.order = order ∧ r.eventType = some eventType ∧ r.isObserved = true
      ∧ r.observedAt = last.observedAt ∧ r.payload = last.payload
      ∧ ((∀ e ∈ es, e.isOf order eventType = true →
            Record.timeLe e.observedAt r.observedAt = true)
          ↔ ∀ e ∈ earlier, Record.timeLe e.observedAt last.observedAt = true) := by
  obtain ⟨e, he, hof⟩ := hsaved
  have hobs : ∀ e ∈ es, e.isObserved = true := fun e he => (hes e he).observed
  obtain ⟨earlier, last, hsplit⟩ : ∃ earlier last,
      es.filter (·.isOf order eventType) = earlier ++ [last] := by
    have hne : es.filter (·.isOf order eventType) ≠ [] :=
      List.ne_nil_of_mem (List.mem_filter.mpr ⟨he, hof⟩)
    exact ⟨_, _, (List.dropLast_concat_getLast hne).symm⟩
  have hmem : ∀ {d}, d ∈ earlier ++ [last] ↔ d ∈ es ∧ d.isOf order eventType = true := by
    intro d
    rw [← hsplit, List.mem_filter]
  obtain ⟨hlast, hlof⟩ := hmem.mp (List.mem_concat_self ..)
  obtain ⟨hlorder, hltype⟩ : last.order = order ∧ last.eventType = some eventType := by
    simpa [Record.isOf] using hlof
  have ho : Key.Plain order := hlorder ▸ (hes last hlast).plain
  have hunder : (savedUnder es (Key.forOrder order eventType)).getLast? = some last := by
    rw [savedUnder_forOrder hes ho, hsplit, List.getLast?_concat]
  obtain ⟨r, hr, hshows⟩ := find?_of_getLast? hobs hunder
  have hob : (ofSaves es).Observes order eventType r := by
    refine ⟨⟨_, hr⟩, hshows.order_eq.trans hlorder, hshows.type_eq.trans hltype, ?_⟩
    rw [Record.isObserved, hshows.observedAt_eq]
    exact hobs last hlast
  obtain ⟨q, hq⟩ := hob.latest?
  have hqr : q = r := by
    have hkept := find?_of_observes hes ho (observes_of_latest? hq)
    rw [hr] at hkept
    exact (Option.some.inj hkept).symm
  subst hqr
  refine ⟨earlier, last, q, hsplit, hq, hob.order_eq, hob.type_eq, hob.observed,
    hshows.observedAt_eq, hshows.payload_eq, ?_⟩
  rw [hshows.observedAt_eq]
  constructor
  · intro hall d hd
    obtain ⟨hdes, hdof⟩ := hmem.mp (List.mem_append_left [last] hd)
    exact hall d hdes hdof
  · intro hall d hdes hdof
    rcases List.mem_append.mp (hmem.mpr ⟨hdes, hdof⟩) with hd | hd
    · exact hall d hd
    · obtain rfl := List.mem_singleton.mp hd
      rcases Record.timeLe_total d.observedAt d.observedAt with h | h <;> exact h

/-- A shipment is seen twice, and what was seen first comes in last, so that the last event is not
the newest. -/
def swapped : List Record :=
  [.observed "ORD1" "SHIPPED" .null (.ofMillis 0 10000),
    .observed "ORD1" "SHIPPED" .null (.ofMillis 0 5000)]

theorem filed_swapped : ∀ e ∈ swapped, e.Filed := by
  have hplain : Key.Plain "ORD1" := by
    rw [Key.Plain]
    decide
  simp only [swapped, List.forall_mem_cons, List.not_mem_nil, false_implies, implies_true, and_true]
  exact ⟨⟨rfl, hplain, _, rfl, rfl⟩, ⟨rfl, hplain, _, rfl, rfl⟩⟩

theorem late_event_found : (∀ e ∈ swapped, e.Filed)
    ∧ (∃ e ∈ swapped, e.isOf "ORD1" "SHIPPED" = true)
    ∧ ∃ r, (ofSaves swapped).latest? "ORD1" "SHIPPED" = some r
      ∧ r.observedAt = some (.ofMillis 0 5000) := by
  have hsaved : ∃ e ∈ swapped, e.isOf "ORD1" "SHIPPED" = true :=
    ⟨_, List.mem_cons_self, by decide⟩
  obtain ⟨earlier, last, r, hsplit, hr, -, -, -, htime, -⟩ := latest_is_last filed_swapped hsaved
  have hboth : swapped.filter (·.isOf "ORD1" "SHIPPED") = swapped := by decide
  rw [hboth] at hsplit
  have hlast : swapped.getLast? = some last := by rw [hsplit, List.getLast?_concat]
  refine ⟨filed_swapped, hsaved, r, hr, htime.trans ?_⟩
  rw [← Option.some.inj hlast]
  rfl

/-- The answer of a look-up need not be the newest of the events that were saved, even if all
orders and types are plain. -/
theorem newest_event_lost : ¬ ∀ es : List Record,
    (∀ e ∈ es, e.Filed ∧ ∃ t, e.eventType = some t ∧ Key.Plain t) →
      ∀ order eventType, (∃ e ∈ es, e.isOf order eventType = true) →
        ∃ r, (ofSaves es).latest? order eventType = some r ∧ r.isObserved = true
          ∧ ∀ e ∈ es, e.isOf order eventType = true →
            Record.timeLe e.observedAt r.observedAt = true := by
  intro h
  have hplain : Key.Plain "SHIPPED" := by
    rw [Key.Plain]
    decide
  have hswapped : ∀ e ∈ swapped, e.Filed ∧ ∃ t, e.eventType = some t ∧ Key.Plain t := by
    intro e he
    refine ⟨filed_swapped e he, "SHIPPED", ?_, hplain⟩
    simp only [swapped, List.mem_cons, List.not_mem_nil, or_false] at he
    rcases he with rfl | rfl <;> rfl
  obtain ⟨r, hr, -, hnewest⟩ := h swapped hswapped "ORD1" "SHIPPED"
    ⟨_, List.mem_cons_self, by decide⟩
  have hfound : (ofSaves swapped).latest? "ORD1" "SHIPPED"
      = some (.observed "ORD1" "SHIPPED" .null (.ofMillis 0 5000)) := by rfl
  obtain rfl := Option.some.inj (hr.symm.trans hfound)
  have hle := hnewest (.observed "ORD1" "SHIPPED" .null (.ofMillis 0 10000)) List.mem_cons_self
    (by decide)
  exact absurd hle (by decide)

end RecordStore

end Rendezvous
