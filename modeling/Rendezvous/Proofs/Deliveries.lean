import Mathlib.Data.List.Induction
import Mathlib.Data.List.Nodup
import Rendezvous.Proofs.Receivers

/-!
# What a mailbox delivers

A mailbox does not remember who has had which result. `Mailbox.History` does, from the outside: it
sees which receivers become resolved, and with what, and says which completion that must come from.
A receiver resolved by a completion has that one's result; one resolved as it is registered can only
have the result of the last completion of its key, if that one reached nobody.

After any calls (`History.delivers`), no receiver has been resolved twice or with the result of
another key, and no result that was held has gone to two receivers.
-/

namespace Rendezvous.Mailbox

/-! ## Runs -/

/-- What can happen to a mailbox, one thing after the other. Time passes between calls, and never
within one. -/
inductive Call
  | register (key : String)
  | drop (id : Nat)
  | receive (id : Nat)
  /-- Of several equally old completions, `place` picks the one that leaves a full buffer. -/
  | complete (key : String) (result : Record) (place : List String → Nat)
  | waiting (key : String)
  | unclaimed
  | wait (ms : Nat)

/-- A completion as it goes into the history: its key, its result, its time and how many receivers
it reached. -/
structure Completed where
  key : String
  result : Record
  time : Nat
  reached : Nat

/-- A receiver that became resolved, what with, and the number of the completion it owes that to.
The last is a matter of the history; the mailbox itself does not know it. -/
structure Delivery where
  receiver : Nat
  result : Record
  source : Option Nat

def result? (a : Mailbox) (id : Nat) : Option Record :=
  match a.receivers[id]? with
  | some (.resolved r) => some r
  | _ => none

/-- The receivers with results in `b` that they do not have in `a`, as can be seen from outside. -/
def newlyResolved (a b : Mailbox) : List (Nat × Record) :=
  (List.range b.receivers.length).filterMap fun id =>
    if a.result? id = b.result? id then none else (b.result? id).map (id, ·)

/-- A mailbox with what has happened to it: which keys its receivers were registered for, the
completions, and the deliveries. Nothing the mailbox does depends on it. -/
structure History where
  mailbox : Mailbox
  clock : Nat
  /-- The keys that the receivers were registered for, by number. -/
  keys : List String
  completions : List Completed
  deliveries : List Delivery

namespace History

def start : History := ⟨.empty, 0, [], [], []⟩

def last (w : History) (key : String) : Option Nat :=
  ((w.completions.zipIdx.filter fun c => c.1.key = key).map (·.2)).getLast?

/-- The receivers registered for `key` that are neither resolved nor dropped, in the order they were
registered. -/
def pendingOn (w : History) (key : String) : List Nat :=
  (List.range w.keys.length).filter fun id =>
    w.keys[id]? = some key && w.mailbox.isPending id

/-- The deliveries after the mailbox has become `a`. The new ones are owed to the completion
`source`. -/
def deliveriesTo (w : History) (a : Mailbox) (source : Option Nat) : List Delivery :=
  w.deliveries ++ (newlyResolved w.mailbox a).map fun d => ⟨d.1, d.2, source⟩

/-- The history goes on: the mailbox has become `a`, and no completion accounts for it. -/
def become (w : History) (a : Mailbox) : History :=
  { w with mailbox := a, deliveries := w.deliveriesTo a none }

def perform (ttl capacity : Nat) (w : History) : Call → History
  | .register key =>
    let a := (w.mailbox.register ⟨ttl, capacity, fun _ => 0⟩ w.clock key).2
    { w with
      mailbox := a
      keys := w.keys ++ [key]
      deliveries := w.deliveriesTo a (w.last key) }
  | .drop id => w.become (w.mailbox.drop id)
  | .receive id => w.become (w.mailbox.receive id).2
  | .complete key result place =>
    let (c, a) := w.mailbox.complete ⟨ttl, capacity, place⟩ w.clock key result
    { w with
      mailbox := a
      completions := w.completions ++ [⟨key, result, w.clock, c.delivered⟩]
      deliveries := w.deliveriesTo a (some w.completions.length) }
  | .waiting _ => w
  | .unclaimed => w.become (w.mailbox.unclaimed ⟨ttl, capacity, fun _ => 0⟩ w.clock).2
  | .wait ms => { w with clock := w.clock + ms }

/-- The history of `calls` on a new mailbox that holds up to `capacity` completions for `ttl`, the
first call first. -/
def run (ttl capacity : Nat) (calls : List Call) : History :=
  calls.foldl (perform ttl capacity) start

end History

/-! ## Results that receivers have -/

section

variable {a b : Mailbox} {ret : Retention} {now : Nat} {key : String} {id : Nat} {r : Record}

theorem result?_eq_some : a.result? id = some r ↔ a.receivers[id]? = some (.resolved r) := by
  unfold result?
  split
  · rename_i r' h
    simp [h]
  · rename_i h
    simp only [reduceCtorEq, false_iff]
    exact h r

theorem isPending_eq_false_of_result? (h : a.result? id = some r) : a.isPending id = false := by
  rw [isPending, result?_eq_some.mp h]
  exact decide_eq_false (by simp)

theorem lt_of_result? (h : a.result? id = some r) : id < a.receivers.length :=
  (List.getElem?_eq_some_iff.mp (result?_eq_some.mp h)).1

theorem mem_newlyResolved :
    (id, r) ∈ newlyResolved a b ↔ a.result? id ≠ some r ∧ b.result? id = some r := by
  unfold newlyResolved
  rw [List.mem_filterMap]
  constructor
  · rintro ⟨i, -, h⟩
    split at h
    · cases h
    · rename_i hn
      obtain ⟨q, hq, h⟩ := Option.map_eq_some_iff.mp h
      obtain ⟨rfl, rfl⟩ := Prod.mk.inj h
      exact ⟨fun ha => hn (ha.trans hq.symm), hq⟩
  · rintro ⟨hn, hr⟩
    refine ⟨id, List.mem_range.mpr (lt_of_result? hr), ?_⟩
    rw [hr, if_neg hn]
    rfl

theorem nodup_newlyResolved (a b : Mailbox) : ((newlyResolved a b).map (·.1)).Nodup := by
  unfold newlyResolved
  rw [List.map_filterMap]
  refine List.nodup_range.filterMap fun i j k hi hj => ?_
  have hid : ∀ i, k ∈ Option.map (·.1)
      (if a.result? i = b.result? i then none else (b.result? i).map (i, ·)) → i = k := by
    intro i hi
    split at hi
    · cases hi
    · rw [Option.map_map] at hi
      obtain ⟨q, -, h⟩ := Option.map_eq_some_iff.mp hi
      exact h
  exact (hid i hi).trans (hid j hj).symm

theorem newlyResolved_eq_nil (h : ∀ id r, b.result? id = some r → a.result? id = some r) :
    newlyResolved a b = [] := by
  refine List.eq_nil_iff_forall_not_mem.mpr fun d hd => ?_
  obtain ⟨hn, hr⟩ := mem_newlyResolved.mp hd
  exact hn (h _ _ hr)

theorem result?_complete (a : Mailbox) (ret : Retention) (now : Nat) (key : String)
    (result : Record) (id : Nat) : (a.complete ret now key result).2.result? id
      = if id ∈ a.live key then some result else a.result? id := by
  unfold result?
  rw [getElem?_complete]
  by_cases h : id ∈ a.live key
  · rw [if_pos h, if_pos h]
  · rw [if_neg h, if_neg h]

theorem result?_register_lt (h : id < a.receivers.length) :
    (a.register ret now key).2.result? id = a.result? id := by
  unfold result?
  rw [receivers_register, List.getElem?_append_left h]

theorem result?_register_length (a : Mailbox) (ret : Retention) (now : Nat) (key : String) :
    (a.register ret now key).2.result? a.receivers.length
      = (a.unexpired ret now key).map (·.result) := by
  unfold result?
  rw [receivers_register, List.getElem?_concat_length, arrival]
  cases a.unexpired ret now key with
  | none => rfl
  | some h => rfl

/-- A receiver that stops waiting has no new result by that. -/
theorem result?_set {r' : Receiver} (hr' : ∀ r, r' ≠ .resolved r) {j : Nat}
    (h : result? { a with receivers := a.receivers.set id r' } j = some r) :
    a.result? j = some r := by
  rw [result?_eq_some] at h ⊢
  by_cases hj : id = j
  · subst hj
    by_cases hlt : id < a.receivers.length
    · rw [List.getElem?_set_self hlt] at h
      exact absurd (Option.some.inj h) (hr' r)
    · rw [List.getElem?_eq_none (by simpa using hlt)] at h
      cases h
  · rwa [List.getElem?_set_ne hj] at h

end

/-! ## Receivers and what they are owed -/

namespace History

/-- Every delivery is of the result of a completion of the receiver's key, no receiver has two, and
whoever is resolved has had one. -/
structure Sound (w : History) : Prop where
  tracks : w.mailbox.Tracks w.keys
  sourced : ∀ d ∈ w.deliveries, ∃ n c, d.source = some n ∧ w.completions[n]? = some c
    ∧ w.keys[d.receiver]? = some c.key ∧ d.result = c.result
  once : (w.deliveries.map (·.receiver)).Nodup
  settled : ∀ d ∈ w.deliveries, w.mailbox.isPending d.receiver = false
  resolved : ∀ {id r}, w.mailbox.result? id = some r →
    ∃ d ∈ w.deliveries, d.receiver = id ∧ d.result = r

theorem sound_start : start.Sound where
  tracks := tracks_empty
  sourced d hd := by cases hd
  once := .nil
  settled d hd := by cases hd
  resolved h := by cases h

variable {w : History} {a : Mailbox} {source : Option Nat} {keys : List String}
  {completions : List Completed}

theorem mem_deliveriesTo {d : Delivery} : d ∈ w.deliveriesTo a source ↔
    d ∈ w.deliveries ∨ d.source = source ∧ w.mailbox.result? d.receiver ≠ some d.result
      ∧ a.result? d.receiver = some d.result := by
  rw [deliveriesTo, List.mem_append, List.mem_map]
  refine or_congr Iff.rfl ⟨?_, ?_⟩
  · rintro ⟨⟨id, r⟩, hm, rfl⟩
    exact ⟨rfl, mem_newlyResolved.mp hm⟩
  · rintro ⟨rfl, hm⟩
    exact ⟨(d.receiver, d.result), mem_newlyResolved.mpr hm, rfl⟩

/-- What a completion is owed does not change when another one is accounted for. So each can be
counted when it happens. -/
theorem filter_deliveriesTo {n : Nat} (h : source ≠ some n) :
    (w.deliveriesTo a source).filter (·.source = some n)
      = w.deliveries.filter (·.source = some n) := by
  have hnew : ((newlyResolved w.mailbox a).map fun d => (⟨d.1, d.2, source⟩ : Delivery)).filter
      (·.source = some n) = [] := by
    refine List.filter_eq_nil_iff.mpr fun d hd => ?_
    obtain ⟨e, -, rfl⟩ := List.mem_map.mp hd
    simpa using h
  rw [deliveriesTo, List.filter_append, hnew, List.append_nil]

theorem getElem?_of_prefix {α : Type} {l m : List α} (h : l <+: m) {n : Nat} {x : α}
    (hx : l[n]? = some x) : m[n]? = some x := by
  obtain ⟨hlt, rfl⟩ := List.getElem?_eq_some_iff.mp hx
  exact List.prefix_iff_getElem?.mp h n hlt

theorem Sound.source_lt (h : w.Sound) {d : Delivery} (hd : d ∈ w.deliveries) {n : Nat}
    (hn : d.source = some n) : n < w.completions.length := by
  obtain ⟨m, c, hm, hc, -⟩ := h.sourced d hd
  obtain rfl := Option.some.inj (hn.symm.trans hm)
  exact (List.getElem?_eq_some_iff.mp hc).1

/-- What a call has to show of the mailbox it leaves: nobody begins to wait but a new receiver, and
whoever becomes resolved was waiting or is new, and gets the result of a completion of its key. -/
theorem Sound.become (h : w.Sound) (ht : a.Tracks keys) (hk : w.keys <+: keys)
    (hc : w.completions <+: completions)
    (hpending : ∀ id < w.keys.length, a.isPending id = true → w.mailbox.isPending id = true)
    (hresult : ∀ id r, a.result? id = some r → w.mailbox.result? id = some r
      ∨ (w.mailbox.isPending id = true ∨ w.keys.length ≤ id)
        ∧ ∃ n c, source = some n ∧ completions[n]? = some c ∧ keys[id]? = some c.key
          ∧ r = c.result) :
    Sound { w with
      mailbox := a
      keys := keys
      completions := completions
      deliveries := w.deliveriesTo a source } := by
  have hlt : ∀ d ∈ w.deliveries, d.receiver < w.keys.length := by
    intro d hd
    obtain ⟨n, c, -, -, hkey, -⟩ := h.sourced d hd
    exact (List.getElem?_eq_some_iff.mp hkey).1
  have hnew : ∀ id r, w.mailbox.result? id ≠ some r → a.result? id = some r →
      (w.mailbox.isPending id = true ∨ w.keys.length ≤ id)
        ∧ ∃ n c, source = some n ∧ completions[n]? = some c ∧ keys[id]? = some c.key
          ∧ r = c.result := by
    intro id r hn hr
    rcases hresult id r hr with hs | h
    · exact absurd hs hn
    · exact h
  refine ⟨ht, ?sourced, ?once, ?settled, ?resolved⟩
  case sourced =>
    intro d hd
    rcases mem_deliveriesTo.mp hd with hd | ⟨hs, hn, hr⟩
    · obtain ⟨n, c, hn, hcn, hkey, hr⟩ := h.sourced d hd
      exact ⟨n, c, hn, getElem?_of_prefix hc hcn, getElem?_of_prefix hk hkey, hr⟩
    · obtain ⟨-, n, c, hn, hcn, hkey, hr⟩ := hnew _ _ hn hr
      exact ⟨n, c, hs.trans hn, hcn, hkey, hr⟩
  case once =>
    change ((w.deliveriesTo a source).map (·.receiver)).Nodup
    rw [deliveriesTo, List.map_append, List.map_map]
    refine List.nodup_append.mpr ⟨h.once, nodup_newlyResolved _ _, ?_⟩
    intro i hi j hj
    obtain ⟨d, hd, rfl⟩ := List.mem_map.mp hi
    obtain ⟨⟨j, r⟩, hm, rfl⟩ := List.mem_map.mp hj
    obtain ⟨hn, hr⟩ := mem_newlyResolved.mp hm
    rintro (rfl : d.receiver = j)
    have hpend := h.settled d hd
    have := hlt d hd
    rcases (hnew _ _ hn hr).1 with hp | hle
    · exact absurd (hpend.symm.trans hp) (by decide)
    · omega
  case settled =>
    intro d hd
    change a.isPending d.receiver = false
    rcases mem_deliveriesTo.mp hd with hd | ⟨-, -, hr⟩
    · refine Bool.eq_false_iff.mpr fun hp => ?_
      have := hpending _ (hlt d hd) hp
      exact absurd ((h.settled d hd).symm.trans this) (by decide)
    · exact isPending_eq_false_of_result? hr
  case resolved =>
    intro id r hr
    change a.result? id = some r at hr
    by_cases hw : w.mailbox.result? id = some r
    · obtain ⟨d, hd, hid, hq⟩ := h.resolved hw
      exact ⟨d, mem_deliveriesTo.mpr (.inl hd), hid, hq⟩
    · exact ⟨⟨id, r, source⟩, mem_deliveriesTo.mpr (.inr ⟨rfl, hw, hr⟩), rfl, rfl⟩

/-! ## Completions that are held -/

theorem last_append (w : History) (c : Completed) (key : String) :
    last { w with completions := w.completions ++ [c] } key
      = if c.key = key then some w.completions.length else w.last key := by
  unfold last
  rw [List.zipIdx_append, List.filter_append, List.map_append, List.getLast?_append]
  by_cases hk : c.key = key
  · simp [hk]
  · simp [hk]

/-- Whatever is held is the result of the last completion of its key. That one reached nobody, and
nobody has had the result yet or waits for it. -/
structure Stocked (w : History) : Prop where
  idle : ∀ {key h}, w.mailbox.held.get? key = some h → w.mailbox.live key = []
  held : ∀ {key h}, w.mailbox.held.get? key = some h → ∃ n, w.last key = some n
    ∧ w.completions[n]? = some ⟨key, h.result, h.since, 0⟩ ∧ ∀ d ∈ w.deliveries, d.source ≠ some n
  claimed : ∀ {n c}, w.completions[n]? = some c → c.reached = 0 →
    (w.deliveries.filter (·.source = some n)).length ≤ 1

theorem stocked_start : start.Stocked where
  idle h := by cases h
  held h := by cases h
  claimed h := by cases h

/-- What the calls have in common that resolve nobody, let nobody begin to wait and put nothing into
the buffer. -/
structure Quiet (w : History) (a : Mailbox) : Prop where
  tracks : a.Tracks w.keys
  pending : ∀ {id}, a.isPending id = true → w.mailbox.isPending id = true
  result : ∀ {id r}, a.result? id = some r → w.mailbox.result? id = some r
  held : ∀ {key h}, a.held.get? key = some h → w.mailbox.held.get? key = some h

theorem Quiet.deliveriesTo (h : w.Quiet a) (source : Option Nat) :
    w.deliveriesTo a source = w.deliveries := by
  rw [History.deliveriesTo, newlyResolved_eq_nil fun _ _ => h.result]
  exact List.append_nil _

theorem Quiet.sound (h : w.Quiet a) (hs : w.Sound) : (w.become a).Sound :=
  hs.become h.tracks List.prefix_rfl List.prefix_rfl (fun _ _ => h.pending)
    fun _ _ hr => .inl (h.result hr)

theorem Quiet.stocked (h : w.Quiet a) (hs : w.Sound) (hst : w.Stocked) :
    (w.become a).Stocked where
  idle {key hd} hh := by
    refine List.eq_nil_iff_forall_not_mem.mpr fun id hid => ?_
    obtain ⟨hp, hk⟩ := h.tracks.mem_live.mp hid
    have hlive := hs.tracks.mem_live.mpr ⟨h.pending hp, hk⟩
    rw [hst.idle (h.held hh)] at hlive
    cases hlive
  held hh := by
    obtain ⟨n, hl, hc, hn⟩ := hst.held (h.held hh)
    refine ⟨n, hl, hc, ?_⟩
    rw [become, h.deliveriesTo]
    exact hn
  claimed := by
    rw [become, h.deliveriesTo]
    exact hst.claimed

theorem quiet_set (hs : w.Sound) (id : Nat) {r : Receiver} (hp : r ≠ .pending)
    (hr : ∀ q, r ≠ .resolved q) :
    w.Quiet { w.mailbox with receivers := w.mailbox.receivers.set id r } where
  tracks := hs.tracks.set id hp
  pending h := by
    rw [isPending_set _ _ _ hp, Bool.and_eq_true] at h
    exact h.1
  result h := result?_set hr h
  held h := h

theorem quiet_prune (hs : w.Sound) (ret : Retention) (now : Nat) :
    w.Quiet (w.mailbox.prune ret now) where
  tracks := hs.tracks.prune ret now
  pending h := h
  result h := h
  held {key h} hh := by
    rw [get?_held_prune] at hh
    exact (Option.filter_eq_some_iff.mp hh).1

theorem quiet_receive (hs : w.Sound) (id : Nat) : w.Quiet (w.mailbox.receive id).2 := by
  have hsame : w.Quiet w.mailbox := ⟨hs.tracks, fun h => h, fun h => h, fun h => h⟩
  unfold Mailbox.receive
  split
  · exact quiet_set hs id (by simp) (by simp)
  · exact hsame
  · exact hsame

section

variable {ret : Retention} {key : String} {result : Record} {k : String} {hd : Held}

theorem exists_source (hst : w.Stocked) {now : Nat}
    (h : w.mailbox.unexpired ret now key = some hd) :
    ∃ n, w.last key = some n ∧ w.completions[n]? = some ⟨key, hd.result, hd.since, 0⟩
      ∧ ∀ d ∈ w.deliveries, d.source ≠ some n :=
  hst.held (Option.filter_eq_some_iff.mp h).1

/-- A new receiver is resolved by the completion that is held for its key, if there is one. -/
theorem result?_register (hs : w.Sound) {now id : Nat} {r : Record}
    (h : (w.mailbox.register ret now key).2.result? id = some r) :
    w.mailbox.result? id = some r
      ∨ id = w.keys.length ∧ ∃ hd, w.mailbox.unexpired ret now key = some hd ∧ r = hd.result := by
  have hlt := lt_of_result? h
  rw [receivers_register, List.length_append, List.length_singleton] at hlt
  by_cases hid : id < w.mailbox.receivers.length
  · rw [result?_register_lt hid] at h
    exact .inl h
  · obtain rfl : id = w.mailbox.receivers.length := by omega
    rw [result?_register_length] at h
    obtain ⟨hd, hu, rfl⟩ := Option.map_eq_some_iff.mp h
    exact .inr ⟨hs.tracks.length_eq, hd, hu, rfl⟩

theorem isPending_register (hs : w.Sound) {now id : Nat}
    (h : (w.mailbox.register ret now key).2.isPending id = true) :
    w.mailbox.isPending id = true
      ∨ id = w.keys.length ∧ w.mailbox.unexpired ret now key = none := by
  rw [isPending, receivers_register] at h
  change isPending { w.mailbox with receivers := _ } id = true at h
  rw [isPending_append] at h
  split at h
  · refine .inr ⟨‹id = _›.trans hs.tracks.length_eq, ?_⟩
    rw [arrival, decide_eq_true_eq] at h
    cases hu : w.mailbox.unexpired ret now key with
    | none => rfl
    | some hd =>
        rw [hu] at h
        cases h
  · exact .inl h

/-- Nobody but the new receiver becomes resolved. -/
theorem newlyResolved_register (hs : w.Sound) (ret : Retention) (now : Nat) (key : String) :
    newlyResolved w.mailbox (w.mailbox.register ret now key).2
      = ((w.mailbox.unexpired ret now key).map fun hd => (w.keys.length, hd.result)).toList := by
  have hnone : w.mailbox.result? w.mailbox.receivers.length = none := by
    unfold result?
    rw [List.getElem?_eq_none (Nat.le_refl _)]
  unfold newlyResolved
  rw [receivers_register, List.length_append, List.length_singleton, List.range_succ,
    List.filterMap_append, List.filterMap_eq_nil_iff.mpr fun id hid => ?_, List.nil_append,
    List.filterMap_cons, hnone, result?_register_length, hs.tracks.length_eq]
  · cases w.mailbox.unexpired ret now key with
    | none => rfl
    | some hd => rfl
  · rw [result?_register_lt (List.mem_range.mp hid), if_pos rfl]

theorem Sound.register (h : w.Sound) (hst : w.Stocked) (ret : Retention) (now : Nat)
    (key : String) : Sound { w with
      mailbox := (w.mailbox.register ret now key).2
      keys := w.keys ++ [key]
      deliveries := w.deliveriesTo (w.mailbox.register ret now key).2 (w.last key) } := by
  refine h.become (h.tracks.register ret now key) (List.prefix_append _ _) List.prefix_rfl
    (fun id hid hp => ?_) fun id r hr => ?_
  · rcases isPending_register h hp with hp | ⟨rfl, -⟩
    · exact hp
    · omega
  · rcases result?_register h hr with hr | ⟨rfl, hd, hu, rfl⟩
    · exact .inl hr
    · obtain ⟨n, hl, hc, -⟩ := exists_source hst hu
      exact .inr ⟨.inr (Nat.le_refl _), n, _, hl, hc, by simp, rfl⟩

theorem Stocked.register (h : w.Stocked) (hs : w.Sound) (ret : Retention) (now : Nat)
    (key : String) : Stocked { w with
      mailbox := (w.mailbox.register ret now key).2
      keys := w.keys ++ [key]
      deliveries := w.deliveriesTo (w.mailbox.register ret now key).2 (w.last key) } where
  idle {k hd} hh := by
    change (w.mailbox.register ret now key).2.live k = []
    change (w.mailbox.register ret now key).2.held.get? k = some hd at hh
    rw [get?_held_register] at hh
    split at hh
    · cases hh
    · rename_i hk
      refine List.eq_nil_iff_forall_not_mem.mpr fun id hid => ?_
      obtain ⟨hp, hid⟩ := (hs.tracks.register ret now key).mem_live.mp hid
      rcases isPending_register hs hp with hp | ⟨rfl, -⟩
      · have hlt : id < w.keys.length := hs.tracks.length_eq ▸ lt_of_isPending hp
        rw [List.getElem?_append_left hlt] at hid
        have hlive := hs.tracks.mem_live.mpr ⟨hp, hid⟩
        rw [h.idle (Option.filter_eq_some_iff.mp hh).1] at hlive
        cases hlive
      · rw [List.getElem?_concat_length] at hid
        exact hk (Option.some.inj hid).symm
  held {k hd} hh := by
    change (w.mailbox.register ret now key).2.held.get? k = some hd at hh
    rw [get?_held_register] at hh
    split at hh
    · cases hh
    · rename_i hk
      obtain ⟨n, hl, hc, hn⟩ := exists_source h hh
      refine ⟨n, hl, hc, fun d hd => ?_⟩
      rcases mem_deliveriesTo.mp hd with hd | ⟨hsrc, hnone, hr⟩
      · exact hn d hd
      · rcases result?_register hs hr with hr | ⟨-, hd', hu, -⟩
        · exact absurd hr hnone
        · obtain ⟨m, hl', hc', -⟩ := exists_source h hu
          rw [hsrc, hl']
          rintro heq
          obtain rfl := Option.some.inj heq
          exact hk (congrArg Completed.key (Option.some.inj (hc.symm.trans hc')))
  claimed {n c} hc hr := by
    change ((w.deliveriesTo _ _).filter _).length ≤ 1
    by_cases hl : w.last key = some n
    · rw [deliveriesTo, newlyResolved_register hs, List.filter_append, List.length_append]
      cases hu : w.mailbox.unexpired ret now key with
      | none => exact h.claimed hc hr
      | some hd =>
          obtain ⟨m, hm, -, hnone⟩ := exists_source h hu
          obtain rfl := Option.some.inj (hl.symm.trans hm)
          rw [List.filter_eq_nil_iff.mpr fun d hd => by simpa using hnone d hd, List.length_nil,
            Nat.zero_add]
          exact List.length_filter_le _ _
    · rw [filter_deliveriesTo hl]
      exact h.claimed hc hr

theorem newlyResolved_complete {now : Nat} (hl : w.mailbox.live key = []) :
    newlyResolved w.mailbox (w.mailbox.complete ret now key result).2 = [] := by
  refine newlyResolved_eq_nil fun id r hr => ?_
  rwa [result?_complete, hl, if_neg List.not_mem_nil] at hr

theorem Sound.complete (h : w.Sound) (ret : Retention) (now : Nat) (key : String)
    (result : Record) (reached : Nat) :
    Sound { w with
      mailbox := (w.mailbox.complete ret now key result).2
      completions := w.completions ++ [⟨key, result, now, reached⟩]
      deliveries :=
        w.deliveriesTo (w.mailbox.complete ret now key result).2 (some w.completions.length) } := by
  refine h.become (h.tracks.complete ret now key result) List.prefix_rfl (List.prefix_append _ _)
    (fun id _ hp => ?_) fun id r hr => ?_
  · rw [isPending_complete, Bool.and_eq_true] at hp
    exact hp.1
  · rw [result?_complete] at hr
    split at hr
    · obtain ⟨hp, hk⟩ := h.tracks.mem_live.mp ‹_›
      exact .inr ⟨.inl hp, _, _, rfl, List.getElem?_concat_length, hk, (Option.some.inj hr).symm⟩
    · exact .inl hr

/-- A completion that reaches somebody finds nothing held for its key, since nobody waits while
something is held. -/
theorem Stocked.not_held (h : w.Stocked) (hl : w.mailbox.live key ≠ []) :
    w.mailbox.held.get? key = none := by
  cases hh : w.mailbox.held.get? key with
  | none => rfl
  | some hd => exact absurd (h.idle hh) hl

/-- What is held after a completion: its own result, if it reached nobody, and for other keys only
what was held before. -/
theorem Stocked.held_complete (h : w.Stocked) {now : Nat}
    (hh : (w.mailbox.complete ret now key result).2.held.get? k = some hd) :
    k = key ∧ w.mailbox.live key = [] ∧ hd = ⟨result, now⟩
      ∨ k ≠ key ∧ w.mailbox.held.get? k = some hd := by
  by_cases hl : w.mailbox.live key = []
  · rw [get?_held_complete hl] at hh
    split at hh
    · exact .inl ⟨‹_›, hl, (Option.some.inj hh).symm⟩
    · split at hh
      · cases hh
      · exact .inr ⟨‹_›, (Option.filter_eq_some_iff.mp hh).1⟩
  · rw [Mailbox.held_complete fun h0 => hl (List.length_eq_zero_iff.mp h0)] at hh
    refine .inr ⟨?_, hh⟩
    rintro rfl
    cases (h.not_held hl).symm.trans hh

theorem Stocked.complete (h : w.Stocked) (hs : w.Sound) (ret : Retention) (now : Nat)
    (key : String) (result : Record) :
    Stocked { w with
      mailbox := (w.mailbox.complete ret now key result).2
      completions := w.completions
        ++ [⟨key, result, now, (w.mailbox.complete ret now key result).1.delivered⟩]
      deliveries :=
        w.deliveriesTo (w.mailbox.complete ret now key result).2 (some w.completions.length) } where
  idle {k hd} hh := by
    rcases h.held_complete hh with ⟨rfl, -, -⟩ | ⟨hk, hh⟩
    · refine List.eq_nil_iff_forall_not_mem.mpr fun id hid => ?_
      obtain ⟨hp, hk⟩ := (hs.tracks.complete ret now k result).mem_live.mp hid
      exact absurd (hs.tracks.not_pending_complete hk ret now result) (by simp [hp])
    · exact (hs.tracks.live_complete hk ret now result).trans (h.idle hh)
  held {k hd} hh := by
    rcases h.held_complete hh with ⟨rfl, hl, rfl⟩ | ⟨hk, hh⟩
    · refine ⟨w.completions.length, ?_, ?_, fun d hd heq => ?_⟩
      · exact (last_append w _ k).trans (if_pos rfl)
      · rw [List.getElem?_concat_length, delivered_complete, waiting_eq, hl]
        rfl
      · rw [deliveriesTo, newlyResolved_complete hl, List.map_nil, List.append_nil] at hd
        exact Nat.lt_irrefl _ (hs.source_lt hd heq)
    · obtain ⟨n, hn, hc, hnot⟩ := h.held hh
      have hlt : n < w.completions.length := (List.getElem?_eq_some_iff.mp hc).1
      refine ⟨n, ?_, getElem?_of_prefix (List.prefix_append _ _) hc, fun d hd heq => ?_⟩
      · exact (last_append w _ k).trans ((if_neg (Ne.symm hk)).trans hn)
      · rcases mem_deliveriesTo.mp hd with hd | ⟨hsrc, -⟩
        · exact hnot d hd heq
        · obtain rfl := Option.some.inj (hsrc.symm.trans heq)
          exact Nat.lt_irrefl _ hlt
  claimed {n c} hc hr := by
    have hlt := (List.getElem?_eq_some_iff.mp hc).1
    rw [List.length_append, List.length_singleton] at hlt
    by_cases hn : n < w.completions.length
    · rw [List.getElem?_append_left hn] at hc
      rw [filter_deliveriesTo fun heq => Nat.ne_of_gt hn (Option.some.inj heq)]
      exact h.claimed hc hr
    · obtain rfl : n = w.completions.length := by omega
      rw [List.getElem?_concat_length] at hc
      obtain rfl := Option.some.inj hc
      have hl : w.mailbox.live key = [] := by
        change (w.mailbox.complete ret now key result).1.delivered = 0 at hr
        rwa [delivered_complete, waiting_eq, List.length_eq_zero_iff] at hr
      change ((w.deliveriesTo _ _).filter _).length ≤ 1
      rw [deliveriesTo, newlyResolved_complete hl, List.map_nil, List.append_nil,
        List.filter_eq_nil_iff.mpr fun d hd => ?_]
      · exact Nat.zero_le 1
      · have hne := fun heq => Nat.lt_irrefl _ (hs.source_lt hd heq)
        simpa using hne

end

/-! ## Every run -/

theorem sound_perform (ttl capacity : Nat) (hs : w.Sound) (hst : w.Stocked) (c : Call) :
    (w.perform ttl capacity c).Sound ∧ (w.perform ttl capacity c).Stocked := by
  have hquiet : ∀ {a}, w.Quiet a → (w.become a).Sound ∧ (w.become a).Stocked :=
    fun h => ⟨h.sound hs, h.stocked hs hst⟩
  cases c with
  | register key => exact ⟨hs.register hst _ _ key, hst.register hs _ _ key⟩
  | drop id => exact hquiet (quiet_set hs id (by simp) (by simp))
  | receive id => exact hquiet (quiet_receive hs id)
  | complete key result place =>
      exact ⟨hs.complete _ _ key result _, hst.complete hs _ _ key result⟩
  | waiting key => exact ⟨hs, hst⟩
  | unclaimed => exact hquiet (quiet_prune hs _ _)
  | wait ms => exact ⟨⟨hs.1, hs.2, hs.3, hs.4, hs.5⟩, ⟨hst.1, hst.2, hst.3⟩⟩

theorem run_concat (ttl capacity : Nat) (calls : List Call) (c : Call) :
    run ttl capacity (calls ++ [c]) = (run ttl capacity calls).perform ttl capacity c :=
  List.foldl_concat ..

theorem sound_run (ttl capacity : Nat) (calls : List Call) :
    (run ttl capacity calls).Sound ∧ (run ttl capacity calls).Stocked := by
  induction calls using List.reverseRecOn with
  | nil => exact ⟨sound_start, stocked_start⟩
  | append_singleton calls c ih =>
      rw [run_concat]
      exact sound_perform ttl capacity ih.1 ih.2 c

/-- What a mailbox owes to its receivers: who gets which result, that nobody gets two, and what
becomes of a completion that came too early. -/
structure Delivers (ttl capacity : Nat) (w : History) : Prop where
  /-- A completion resolves those that are pending on its key, and returns their number. -/
  completes : ∀ key result place,
    let out := w.mailbox.complete ⟨ttl, capacity, place⟩ w.clock key result
    out.1.delivered = (w.pendingOn key).length ∧ ∀ id : Nat, out.2.receivers[id]? =
      if id ∈ w.pendingOn key then some (.resolved result) else w.mailbox.receivers[id]?
  /-- A new receiver gets what is held for its key and has not expired; that is held no more. -/
  registers : ∀ key place,
    let held := (w.mailbox.held.get? key).filter fun h => w.clock - h.since < ttl
    let out := w.mailbox.register ⟨ttl, capacity, place⟩ w.clock key
    out.1 = (w.keys.length, held.isSome) ∧ out.2.held.get? key = none
      ∧ out.2.receivers = w.mailbox.receivers
        ++ [match held with | some h => .resolved h.result | none => .pending]
  /-- What is held is the result of the last completion of the key, which reached nobody. -/
  holds : ∀ {key h}, w.mailbox.held.get? key = some h → ∃ n, w.last key = some n
    ∧ w.completions[n]? = some ⟨key, h.result, h.since, 0⟩ ∧ ∀ d ∈ w.deliveries, d.source ≠ some n
  once : (w.deliveries.map (·.receiver)).Nodup
  sourced : ∀ d ∈ w.deliveries, ∃ n c, d.source = some n ∧ w.completions[n]? = some c
    ∧ w.keys[d.receiver]? = some c.key ∧ d.result = c.result
  resolved : ∀ {id r}, w.mailbox.receivers[id]? = some (.resolved r) →
    ∃ d ∈ w.deliveries, d.receiver = id ∧ d.result = r
  /-- A result that was held goes to one receiver at most. -/
  claimed : ∀ {n c}, w.completions[n]? = some c → c.reached = 0 →
    (w.deliveries.filter (·.source = some n)).length ≤ 1
  waits : ∀ key, w.mailbox.waiting key = (w.pendingOn key).length

theorem Sound.live_perm (h : w.Sound) (key : String) :
    (w.mailbox.live key).Perm (w.pendingOn key) := by
  refine (List.perm_ext_iff_of_nodup ((h.tracks.nodup key).filter _)
    (List.nodup_range.filter _)).mpr fun id => ?_
  change id ∈ w.mailbox.live key ↔ _
  rw [h.tracks.mem_live, List.mem_filter, List.mem_range, Bool.and_eq_true, decide_eq_true_eq]
  constructor
  · rintro ⟨hp, hk⟩
    exact ⟨(List.getElem?_eq_some_iff.mp hk).1, hk, hp⟩
  · rintro ⟨-, hk, hp⟩
    exact ⟨hp, hk⟩

/-- **What a mailbox delivers.** After any calls, at any retention, a mailbox delivers what it owes
to its receivers. -/
theorem delivers (ttl capacity : Nat) (calls : List Call) :
    (run ttl capacity calls).Delivers ttl capacity := by
  obtain ⟨hs, hst⟩ := sound_run ttl capacity calls
  have hwaits : ∀ key, (run ttl capacity calls).mailbox.waiting key
      = ((run ttl capacity calls).pendingOn key).length :=
    fun key => (hs.live_perm key).length_eq
  refine ⟨?completes, ?registers, hst.held, hs.once, hs.sourced, ?resolved, hst.claimed, hwaits⟩
  case completes =>
    intro key result place
    refine ⟨(delivered_complete ..).trans (hwaits key), ?_⟩
    intro id
    rw [getElem?_complete]
    exact if_congr (hs.live_perm key).mem_iff rfl rfl
  case registers =>
    intro key place
    refine ⟨?_, ?_, receivers_register ..⟩
    · rw [register_fst, hs.tracks.length_eq]
      rfl
    · rw [get?_held_register, if_pos rfl]
  case resolved =>
    intro id r hr
    exact hs.resolved (result?_eq_some.mpr hr)

end History

end Rendezvous.Mailbox
