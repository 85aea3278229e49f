import Mathlib.Data.List.Induction
import Mathlib.Logic.Relation
import Rendezvous.Proofs.Timestamps
import Rendezvous.Record.Codec
import Rendezvous.Scenario.Codec

/-!
# Records and scenario states are read back

What is encoded is decoded to what it was, and it need not be written quite as the encoder does. All
this is about JSON values, in which a payload is a part like any other; only times and statuses are
texts that are taken apart. A status may be spelled in any case and with blanks around it, an
optional field that is null may be left out, and so may a table of steps that is empty. Each of
these is an edit of a JSON object, and none of them changes what the object is decoded to, whatever
else is in it (`Record.decode_edit`, `ScenarioState.decode_edit`); a decoder looks at an object only
field by field, so for each field it is enough to see that it is found as before or comes to the
same. After any number of edits, then, an encoding is decoded to what was encoded
(`edited_read_back`).
-/

namespace Rendezvous

/-! ## Spellings -/

namespace Text

/-- The text `t` is `s` with its ASCII letters in any case and blanks around it. Statuses are read
alike from both. -/
def Respelled (s t : String) : Prop :=
  ∃ before middle after, t.toList = before ++ middle ++ after
    ∧ (∀ c ∈ before, isBlank c = true) ∧ (∀ c ∈ after, isBlank c = true)
    ∧ middle.map Char.toLower = s.toList.map Char.toLower

theorem isBlank_toLower (c : Char) : isBlank c.toLower = isBlank c := by
  unfold Char.toLower
  split
  · rename_i h
    have hle : 65 ≤ c.toNat := h.1
    have hle' : c.toNat ≤ 90 := h.2
    have hlower : (c.val + ('a'.val - 'A'.val)).toNat = c.toNat + 32 := by
      rw [UInt32.toNat_add]
      change (c.toNat + 32) % 2 ^ 32 = _
      omega
    rw [isBlank_eq_false (c := c) (by omega) (by omega)]
    refine isBlank_eq_false ?_ ?_
    · change 33 ≤ (c.val + ('a'.val - 'A'.val)).toNat
      omega
    · change (c.val + ('a'.val - 'A'.val)).toNat ≤ 126
      omega
  · rfl

theorem trim_map_toLower (s : List Char) :
    trim (s.map Char.toLower) = (trim s).map Char.toLower := by
  have hblank : isBlank ∘ Char.toLower = isBlank := funext isBlank_toLower
  simp only [trim, trimEnd, trimStart, List.dropWhile_map, ← List.map_reverse, hblank]

/-- Blanks around a text do not change what is left when it is trimmed. -/
theorem trim_surrounded {before s after : List Char} (hb : ∀ c ∈ before, isBlank c = true)
    (ha : ∀ c ∈ after, isBlank c = true) : trim (before ++ s ++ after) = trim s := by
  obtain ⟨⟨b, a, hs, hb', ha'⟩, hhead, hlast⟩ := trims_trim s
  refine (Trims.eq_trim ⟨⟨before ++ b, a ++ after, ?_, ?_, ?_⟩, hhead, hlast⟩).symm
  · conv => lhs; rw [hs]
    simp only [List.append_assoc]
  · intro c hc
    exact (List.mem_append.mp hc).elim (hb c) (hb' c)
  · intro c hc
    exact (List.mem_append.mp hc).elim (ha' c) (ha c)

theorem Respelled.fold_eq {s t : String} (h : Respelled s t) : fold t = fold s := by
  obtain ⟨before, middle, after, ht, hb, ha, hm⟩ := h
  rw [fold, fold, ht, trim_surrounded hb ha, ← trim_map_toLower, hm, trim_map_toLower]

end Text

/-! ## Tables -/

namespace Entries

variable {α : Type}

theorem insert_last {k : String} (v : α) :
    ∀ {l : List (String × α)}, (∀ e ∈ l, Text.Before e.1 k) → insert k v l = l ++ [(k, v)]
  | [], _ => rfl
  | e :: l, h => by
      have he := h e List.mem_cons_self
      have hl := insert_last v fun d hd => h d (List.mem_cons_of_mem _ hd)
      rw [insert, if_neg (Text.before_asymm he), if_pos he, hl, List.cons_append]

end Entries

namespace Table

variable {α : Type}

theorem entries_ofList {l : List (String × α)} (h : Entries.Sorted l) : (ofList l).entries = l := by
  induction l using List.reverseRecOn with
  | nil => rfl
  | append_singleton l e ih =>
      obtain ⟨hl, -, hlast⟩ := List.pairwise_append.mp h
      rw [ofList, List.foldl_append]
      change Entries.insert e.1 e.2 (ofList l).entries = _
      rw [ih hl]
      exact Entries.insert_last e.2 fun d hd => hlast d hd e List.mem_cons_self

theorem ofList_entries (t : Table α) : ofList t.entries = t := by
  have h := entries_ofList t.sorted
  cases t
  exact (Table.mk.injEq ..).mpr h

end Table

/-! ## Parts that are decoded -/

namespace Decoder

variable {α : Type} {d : Decoder α}

theorem instant_text {t : Instant} (h : t.Ordinary) : instant (.str t.text) = .ok t := by
  rw [instant, Instant.read?_text h]

theorem int32_toInt (n : Int32) : int32 (.int n.toInt) = .ok n := by
  have hle := n.le_toInt
  have hlt := n.toInt_lt
  rw [int32, if_pos ⟨by omega, by omega⟩, Int32.ofInt_toInt]

theorem stepStatus_name (s : StepStatus) : stepStatus (.str s.name) = .ok s := by
  cases s <;> rfl

theorem scenarioStatus_name (s : ScenarioStatus) : scenarioStatus (.str s.name) = .ok s := by
  cases s <;> rfl

/-- A status is decoded alike in all its spellings; even the error is the same. -/
theorem stepStatus_respelled {s t : String} (h : Text.Respelled s t) :
    stepStatus (.str t) = stepStatus (.str s) := by
  rw [stepStatus, stepStatus, StepStatus.parse, StepStatus.parse, h.fold_eq]

theorem scenarioStatus_respelled {s t : String} (h : Text.Respelled s t) :
    scenarioStatus (.str t) = scenarioStatus (.str s) := by
  rw [scenarioStatus, scenarioStatus, ScenarioStatus.parse, ScenarioStatus.parse, h.fold_eq]

theorem optional_of_ne_null {v : Json} (h : v ≠ .null) : optional d v = (d v).map some := by
  unfold optional
  split
  · exact absurd rfl h
  · rfl

theorem optional_text {f : α → String} {v : Option α} (h : ∀ x ∈ v, d (.str (f x)) = .ok x) :
    optional d ((v.map fun x => .str (f x)).getD .null) = .ok v := by
  cases v with
  | none => rfl
  | some x =>
      change optional d (.str (f x)) = _
      rw [optional_of_ne_null Json.noConfusion, h x rfl]
      rfl

theorem optional_string (v : Option String) :
    optional string ((v.map Json.str).getD .null) = .ok v :=
  optional_text (f := id) fun _ _ => rfl

theorem entries_map {f : α → Json} (h : ∀ v, d (f v) = .ok v) :
    ∀ l : List (String × α), entries d (l.map fun e => (e.1, f e.2)) = .ok l
  | [] => rfl
  | e :: l => by
      rw [List.map_cons, entries, h, entries_map h l]
      rfl

theorem table_ofTable {f : α → Json} (h : ∀ v, d (f v) = .ok v) (t : Table α) :
    table d (.ofTable f t) = .ok t := by
  rw [Json.ofTable, table, entries_map h]
  exact congrArg Except.ok t.ofList_entries

end Decoder

/-! ## Fields -/

namespace Json

/-- The fields but those under `key`. If the key was there once, one field is missing. -/
def without (key : String) (fields : List (String × Json)) : List (String × Json) :=
  fields.filter fun e => e.1 ≠ key

theorem field?_without_self (key : String) :
    ∀ fields : List (String × Json), field? key (without key fields) = none
  | [] => rfl
  | e :: fields => by
      have ih := field?_without_self key fields
      rw [without, List.filter_cons]
      split
      · rename_i h
        exact (if_neg (of_decide_eq_true h)).trans ih
      · exact ih

theorem field?_without_ne {k key : String} (h : k ≠ key) :
    ∀ fields : List (String × Json), field? k (without key fields) = field? k fields
  | [] => rfl
  | e :: fields => by
      have ih := field?_without_ne h fields
      rw [without, List.filter_cons]
      split
      · exact if_congr Iff.rfl rfl ih
      · rename_i hkey
        have he : e.1 ≠ k := by
          rintro rfl
          exact hkey (decide_eq_true h)
        exact ih.trans (if_neg he).symm

end Json

namespace Decoder

variable {α : Type} {d : Decoder α} {k key : String} {fields : List (String × Json)}

theorem field_without_self (d : Decoder α) : field d key (Json.without key fields) = .ok none := by
  rw [field, Json.field?_without_self]

theorem field_without_ne (d : Decoder α) (h : k ≠ key) :
    field d k (Json.without key fields) = field d k fields := by
  rw [field, field, Json.field?_without_ne h]

theorem field_without_mem (d : Decoder α) {l : List String} (hkey : key ∈ l) (hk : k ∉ l) :
    field d k (Json.without key fields) = field d k fields :=
  field_without_ne d fun h => hk (h ▸ hkey)

/-- A field that is null is left out, and no field that may be null is found otherwise: missing and
null are read alike. -/
theorem optionalField_without (d : Decoder α) (k : String)
    (h : Json.field? key fields = some .null) :
    optionalField d k (Json.without key fields) = optionalField d k fields := by
  by_cases hk : k = key
  · subst hk
    rw [optionalField, optionalField, field_without_self, field, h]
    rfl
  · rw [optionalField, optionalField, field_without_ne _ hk]

theorem field_cons (d : Decoder α) (k : String) (e : String × Json) :
    field d k (e :: fields) = if e.1 = k then (d e.2).map some else field d k fields := by
  by_cases h : e.1 = k
  · rw [field, Json.field?, Entries.get?, if_pos h, if_pos h]
  · rw [field, Json.field?, Entries.get?, if_neg h, if_neg h, field, Json.field?]

/-- A field is found alike if a value is replaced by one that is decoded alike. -/
theorem field_replace (d : Decoder α) {j : String} {v w : Json} (h : j = k → d v = d w)
    (post : List (String × Json)) : ∀ pre : List (String × Json),
      field d k (pre ++ (j, v) :: post) = field d k (pre ++ (j, w) :: post)
  | [] => by
      rw [List.nil_append, List.nil_append, field_cons, field_cons]
      split
      · rw [h ‹_›]
      · rfl
  | e :: pre => by
      rw [List.cons_append, List.cons_append, field_cons, field_cons, field_replace d h post pre]

theorem entries_replace {j : String} {v w : Json} {post : List (String × Json)}
    (h : d v = d w) : ∀ pre : List (String × Json),
    entries d (pre ++ (j, v) :: post) = entries d (pre ++ (j, w) :: post)
  | [] => by rw [List.nil_append, List.nil_append, entries, entries, h]
  | e :: pre => by
      rw [List.cons_append, List.cons_append, entries, entries, entries_replace h pre]

/-- Edits that each leave a value decoded alike do so one after the other, so one edit at a time is
all there is to look at. -/
theorem decoded_alike {edit : Json → Json → Prop} {v w : Json}
    (hvw : Relation.ReflTransGen edit v w) (h : ∀ v w, edit v w → d w = d v) : d w = d v := by
  induction hvw with
  | refl => rfl
  | tail _ hstep ih => exact (h _ _ hstep).trans ih

end Decoder

/-! ## Records -/

namespace Record

def times (r : Record) : List Instant :=
  r.recordedAt :: (r.observedAt.toList ++ r.firstPaused.toList ++ r.lastPaused.toList)

theorem decode_encode {r : Record} (h : ∀ t ∈ r.times, t.Ordinary) : decode r.encode = .ok r := by
  have htime {v : Option Instant} (hv : ∀ t ∈ v, t ∈ r.times) :
      Decoder.optional Decoder.instant ((v.map fun t => Json.str t.text).getD .null) = .ok v :=
    Decoder.optional_text fun t ht => Decoder.instant_text (h t (hv t ht))
  have hrecorded := Decoder.instant_text (h r.recordedAt List.mem_cons_self)
  have hobserved := htime (v := r.observedAt) fun t ht => by simp [times, Option.mem_def.mp ht]
  have hfirst := htime (v := r.firstPaused) fun t ht => by simp [times, Option.mem_def.mp ht]
  have hlast := htime (v := r.lastPaused) fun t ht => by simp [times, Option.mem_def.mp ht]
  change ofFields _ = _
  simp only [ofFields, Decoder.optionalField, Decoder.field_cons, String.reduceEq, if_true,
    if_false, hrecorded, hobserved, hfirst, hlast, Decoder.optional_string, Decoder.int32_toInt]
  rfl

def optionals : List String :=
  ["event_timestamp", "event_type", "first_paused_at", "last_retry_at", "status"]

/-- A record written in another way that means the same: a field that is null is left out. It may
have been edited before, so any object is edited. -/
inductive Edit : Json → Json → Prop
  | omitNull (key : String) (fields : List (String × Json)) (hkey : key ∈ optionals)
      (hnull : Json.field? key fields = some .null) :
      Edit (.obj fields) (.obj (Json.without key fields))

theorem decode_edit {v w : Json} (h : Edit v w) : decode w = decode v := by
  cases h with
  | omitNull _ _ hkey hnull =>
      change ofFields _ = ofFields _
      simp (disch := decide) only [ofFields, Decoder.field_without_mem _ hkey,
        Decoder.optionalField_without _ _ hnull]

end Record

/-! ## Scenario states -/

namespace ScenarioState

theorem decode_encode {s : ScenarioState} (h : s.lastUpdated.Ordinary) :
    decode s.encode = .ok s := by
  have hupdated := Decoder.instant_text h
  have hstatus : Decoder.optional Decoder.scenarioStatus
      ((s.status.map fun t => Json.str t.name).getD .null) = .ok s.status :=
    Decoder.optional_text fun t _ => Decoder.scenarioStatus_name t
  have hsteps := Decoder.table_ofTable Decoder.stepStatus_name s.stepStatus
  have hcaptured := Decoder.table_ofTable
    (Decoder.table_ofTable (d := Decoder.string) (f := .str) fun _ => rfl) s.captured
  change ofFields _ = _
  simp only [ofFields, Decoder.optionalField, Decoder.field_cons, String.reduceEq, if_true,
    if_false, hupdated, hstatus, hsteps, hcaptured, Decoder.optional_string]
  rfl

theorem decode_replace_scenario {v w : Json}
    (h : Decoder.optional Decoder.scenarioStatus v = Decoder.optional Decoder.scenarioStatus w)
    (pre post : List (String × Json)) :
    decode (.obj (pre ++ ("scenario_status", v) :: post))
      = decode (.obj (pre ++ ("scenario_status", w) :: post)) := by
  have hfield {α : Type} (d : Decoder α) {k : String} (hd : "scenario_status" = k → d v = d w) :=
    Decoder.field_replace d hd post pre
  change ofFields _ = ofFields _
  simp (disch := simp [h]) only [ofFields, Decoder.optionalField, hfield]

theorem decode_replace_steps {v w : Json}
    (h : Decoder.table Decoder.stepStatus v = Decoder.table Decoder.stepStatus w)
    (pre post : List (String × Json)) :
    decode (.obj (pre ++ ("step_status", v) :: post))
      = decode (.obj (pre ++ ("step_status", w) :: post)) := by
  have hfield {α : Type} (d : Decoder α) {k : String} (hd : "step_status" = k → d v = d w) :=
    Decoder.field_replace d hd post pre
  change ofFields _ = ofFields _
  simp (disch := simp [h]) only [ofFields, Decoder.optionalField, hfield]

def optionals : List String := ["example_id", "scenario_status", "test_case_id"]

def tables : List String := ["step_data", "step_status"]

/-- A state written in another way that means the same: a field that is null or a table that is
empty is left out, or a status is spelled in another way. -/
inductive Edit : Json → Json → Prop
  | omitNull (key : String) (fields : List (String × Json)) (hkey : key ∈ optionals)
      (hnull : Json.field? key fields = some .null) :
      Edit (.obj fields) (.obj (Json.without key fields))
  | omitTable (key : String) (fields : List (String × Json)) (hkey : key ∈ tables)
      (hempty : Json.field? key fields = some (.obj [])) :
      Edit (.obj fields) (.obj (Json.without key fields))
  | respellScenario (pre post : List (String × Json)) {s t : String} (h : Text.Respelled s t) :
      Edit (.obj (pre ++ ("scenario_status", .str s) :: post))
        (.obj (pre ++ ("scenario_status", .str t) :: post))
  | respellStep (pre post steps rest : List (String × Json)) {step s t : String}
      (h : Text.Respelled s t) :
      Edit (.obj (pre ++ ("step_status", .obj (steps ++ (step, .str s) :: rest)) :: post))
        (.obj (pre ++ ("step_status", .obj (steps ++ (step, .str t) :: rest)) :: post))

theorem decode_edit {v w : Json} (h : Edit v w) : decode w = decode v := by
  cases h with
  | omitNull _ _ hkey hnull =>
      change ofFields _ = ofFields _
      simp (disch := decide) only [ofFields, Decoder.field_without_mem _ hkey,
        Decoder.optionalField_without _ _ hnull]
  | omitTable key fields hkey hempty =>
      have hfound {α : Type} (d : Decoder α) :
          Decoder.field (Decoder.table d) key fields = .ok (some .empty) := by
        rw [Decoder.field, hempty]
        rfl
      change ofFields _ = ofFields _
      simp only [tables, List.mem_cons, List.not_mem_nil, or_false] at hkey
      rcases hkey with rfl | rfl
      all_goals
        simp (disch := decide) only [ofFields, Decoder.optionalField, Decoder.field_without_ne,
          Decoder.field_without_self, hfound]
        rfl
  | respellScenario pre post h =>
      refine decode_replace_scenario ?_ pre post
      rw [Decoder.optional_of_ne_null Json.noConfusion,
        Decoder.optional_of_ne_null Json.noConfusion, Decoder.scenarioStatus_respelled h]
  | respellStep pre post steps rest h =>
      refine decode_replace_steps ?_ pre post
      rw [Decoder.table, Decoder.table, Decoder.entries_replace (Decoder.stepStatus_respelled h)]

end ScenarioState

/-! ## Read back -/

open Relation in
/-- Records and states are decoded to what was encoded, however the encoding was edited in the ways
that mean the same. -/
theorem edited_read_back :
    (∀ r : Record, (∀ t ∈ r.times, t.Ordinary) → Record.decode r.encode = .ok r
      ∧ ∀ v, ReflTransGen Record.Edit r.encode v → Record.decode v = .ok r)
    ∧ ∀ s : ScenarioState, s.lastUpdated.Ordinary → ScenarioState.decode s.encode = .ok s
      ∧ ∀ v, ReflTransGen ScenarioState.Edit s.encode v → ScenarioState.decode v = .ok s := by
  refine ⟨fun r h => ?_, fun s h => ?_⟩
  · have hr := Record.decode_encode h
    exact ⟨hr, fun v hv => (Decoder.decoded_alike hv fun _ _ => Record.decode_edit).trans hr⟩
  · have hs := ScenarioState.decode_encode h
    exact ⟨hs, fun v hv => (Decoder.decoded_alike hv fun _ _ => ScenarioState.decode_edit).trans hs⟩

/-- A record with times from the first second of the year 0 to the last of 9999, with fractions of
all lengths. -/
def fourAges : Record where
  key := "ORD1::SHIPPED"
  order := "ORD1"
  eventType := none
  observedAt := some { seconds := -62167219200, nanos := 1 }
  payload := .obj [("carrier", .str "ups"), ("parcels", .arr [.int 2, .null])]
  paused := true
  ready := false
  retries := -3
  firstPaused := some (.ofMillis (-1) 500)
  lastPaused := some { seconds := 253402300799, nanos := 999999000 }
  status := none
  recordedAt := .ofMillis 1767225600 0

def shipped : ScenarioState where
  key := "Ship::"
  name := "Ship"
  testCase := none
  exampleRow := none
  stepStatus := Table.empty.insert "ship" .success
  captured := .empty
  status := some .passed
  lastUpdated := .ofMillis 1767225600 0

theorem terse_read_back :
    (∀ t ∈ fourAges.times, t.Ordinary)
    ∧ Record.decode (.obj [("canonical_key", .str "ORD1::SHIPPED"),
        ("event_timestamp", .str "0000-01-01T00:00:00.000000001Z"),
        ("first_paused_at", .str "1969-12-31T23:59:59.500Z"),
        ("last_retry_at", .str "9999-12-31T23:59:59.999999Z"),
        ("order_id", .str "ORD1"), ("paused", .bool true),
        ("payload", .obj [("carrier", .str "ups"), ("parcels", .arr [.int 2, .null])]),
        ("recorded_at", .str "2026-01-01T00:00:00Z"), ("resume_ready", .bool false),
        ("retry_count", .int (-3))]) = .ok fourAges
    ∧ shipped.lastUpdated.Ordinary
    ∧ ScenarioState.decode (.obj [("last_updated", .str "2026-01-01T00:00:00Z"),
        ("scenario_key", .str "Ship::"), ("scenario_name", .str "Ship"),
        ("scenario_status", .str "PASSED"),
        ("step_status", .obj [("ship", .str "\u3000Success\n")])]) = .ok shipped := by
  have htimes : ∀ t ∈ fourAges.times, t.Ordinary := by
    intro t ht
    simp only [fourAges, Record.times, Option.toList, List.cons_append, List.nil_append,
      List.mem_cons, List.not_mem_nil, or_false] at ht
    rcases ht with rfl | rfl | rfl | rfl
    all_goals exact ⟨by decide, by decide, by decide⟩
  have hupdated : shipped.lastUpdated.Ordinary := ⟨by decide, by decide, by decide⟩
  have hstep : Text.Respelled "success" "\u3000Success\n" :=
    ⟨['\u3000'], "Success".toList, ['\n'], rfl, List.forall_mem_singleton.mpr rfl,
      List.forall_mem_singleton.mpr rfl, by decide⟩
  have hscenario : Text.Respelled "passed" "PASSED" :=
    ⟨[], "PASSED".toList, [], rfl, List.forall_mem_nil _, List.forall_mem_nil _, by decide⟩
  refine ⟨htimes, ?_, hupdated, ?_⟩
  · refine (edited_read_back.1 fourAges htimes).2 _ ?_
    exact .tail (.single (.omitNull "event_type" _ (by decide) rfl))
      (.omitNull "status" _ (by decide) rfl)
  · refine (edited_read_back.2 shipped hupdated).2 _ ?_
    let named : List (String × Json) := [("last_updated", .str "2026-01-01T00:00:00Z"),
      ("scenario_key", .str "Ship::"), ("scenario_name", .str "Ship")]
    let steps : Json := .obj [("ship", .str "success")]
    have homit : Relation.ReflTransGen ScenarioState.Edit shipped.encode
        (.obj (named ++ [("scenario_status", .str "passed"), ("step_status", steps)])) :=
      .tail (.tail (.single (.omitNull "example_id" _ (by decide) rfl))
        (.omitTable "step_data" _ (by decide) rfl)) (.omitNull "test_case_id" _ (by decide) rfl)
    have hspell := homit.tail (.respellScenario named [("step_status", steps)] hscenario)
    exact hspell.tail (.respellStep (named ++ [("scenario_status", .str "PASSED")]) [] [] [] hstep)

end Rendezvous
