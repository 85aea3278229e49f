import Mathlib.Algebra.Group.Nat.Defs
import Mathlib.Data.List.Induction
import Rendezvous.Proofs.Flags

/-!
# The life of a wait

What belongs to a wait can be read off the history of its key. A record is a wait if it was ever
paused, it counts its pauses and carries the times of the first and the last one, and it is ready if
a call to make it so found it there. Nothing else has a say in this: not the records that are saved
and paused, whatever they carry in these fields, nor what happens under other keys
(`life_follows_history`).

Each key has a history of its own, since a write acts on the record under its key and on no other
(`find?_write`).
-/

namespace Rendezvous

namespace RecordStore

/-! ## One key at a time -/

/-- What a write makes of the record under `key`, if there is one. It is the effect of a write seen
from one key, which is all that a history of the key needs. -/
def Write.act (key : String) : Write → Option Record → Option Record
  | .save e, r => if key = e.key then some (match r with
      | some r => r.merge e
      | none => e.fresh) else r
  | .pause context now, r =>
    if key = context.key then some ((r.getD context.fresh).pause context now) else r
  | .ready k, r => if key = k then r.map ({ · with ready := true }) else r

theorem find?_write (s : RecordStore) (w : Write) (key : String) :
    (s.write w).find? key = w.act key (s.find? key) := by
  cases w with
  | save e => exact s.find?_save e key
  | pause context now => exact s.find?_markPaused context now key
  | ready k => exact s.find?_markReady k key

theorem ofWrites_concat (ws : List Write) (w : Write) :
    ofWrites (ws ++ [w]) = (ofWrites ws).write w := List.foldl_append

theorem ofWrites_append (ws us : List Write) :
    ofWrites (ws ++ us) = us.foldl write (ofWrites ws) := List.foldl_append

/-- When the write pauses the wait under `key`, which only a pause with that key does. -/
def Write.pausedAt? (key : String) : Write → Option Instant
  | .pause context now => if key = context.key then some now else none
  | _ => none

/-- When the wait under `key` was paused, the first time first, as the writes say and not as the
record does. -/
def pauses (key : String) (ws : List Write) : List Instant := ws.filterMap (Write.pausedAt? key)

theorem pauses_concat (key : String) (ws : List Write) (w : Write) :
    pauses key (ws ++ [w]) = pauses key ws ++ (w.pausedAt? key).toList := by
  rw [pauses, List.filterMap_append]
  cases h : w.pausedAt? key <;> simp [pauses, h]

end RecordStore

namespace Record

open RecordStore (Write pauses)

/-! ## Pauses -/

/-- The record, kept under `key`, shows that its wait was paused at `times`: how often, when first
and when last. -/
structure Bears (r : Record) (key : String) (times : List Instant) : Prop where
  key_eq : r.key = key
  paused : r.paused = !times.isEmpty
  retries : r.retries = Int32.ofNat times.length
  firstPaused : r.firstPaused = times.head?
  lastPaused : r.lastPaused = times.getLast?

variable {r : Record} {key : String} {times : List Instant}

/-- A record that is new shows no pause, whatever the one it is made of showed. -/
theorem bears_fresh (e : Record) : e.fresh.Bears e.key [] := ⟨rfl, rfl, rfl, rfl, rfl⟩

theorem Bears.merge (h : r.Bears key times) (e : Record) : (r.merge e).Bears key times := by
  have hkept := r.keepsWait_merge e
  exact ⟨(r.merge_key e).trans h.key_eq, hkept.paused.trans h.paused,
    hkept.retries.trans h.retries, hkept.firstPaused.trans h.firstPaused,
    hkept.lastPaused.trans h.lastPaused⟩

theorem Bears.pause (h : r.Bears key times) (context : Record) (now : Instant) :
    (r.pause context now).Bears key (times ++ [now]) where
  key_eq := h.key_eq
  paused := by simp
  retries := by
    change r.retries + 1 = _
    rw [h.retries, List.length_append, List.length_singleton, Int32.ofNat_add]
    rfl
  firstPaused := by
    change (r.firstPaused <|> some now) = _
    rw [h.firstPaused, List.head?_append]
    exact Option.orElse_eq_or
  lastPaused := by
    change some now = _
    rw [List.getLast?_concat]

/-- What is kept under `key`, if anything, shows the pauses at `times`. Where nothing is kept there
were none. -/
def Told (key : String) (times : List Instant) : Option Record → Prop
  | none => times = []
  | some r => r.Bears key times

/-- Each write hands on what is shown, and a pause adds its time. -/
theorem Told.act {found : Option Record} (h : Told key times found) (w : Write) :
    Told key (times ++ (w.pausedAt? key).toList) (w.act key found) := by
  cases w with
  | save e =>
      change Told key (times ++ []) (if key = e.key then _ else found)
      rw [List.append_nil]
      split
      · subst key
        cases found with
        | none =>
            obtain rfl : times = [] := h
            exact bears_fresh e
        | some r => exact Bears.merge h e
      · exact h
  | pause context now =>
      change Told key (times ++ Option.toList (if key = context.key then some now else none))
        (if key = context.key then _ else found)
      split
      · subst key
        cases found with
        | none =>
            obtain rfl : times = [] := h
            exact (bears_fresh context).pause context now
        | some r => exact Bears.pause h context now
      · rw [Option.toList_none, List.append_nil]
        exact h
  | ready k =>
      change Told key (times ++ []) (if key = k then _ else found)
      rw [List.append_nil]
      split
      · cases found with
        | none => exact h
        | some r => exact ⟨h.key_eq, h.paused, h.retries, h.firstPaused, h.lastPaused⟩
      · exact h

end Record

namespace RecordStore

/-- What a store keeps under a key shows the pauses of the key, by induction on its last write. -/
theorem told_ofWrites (key : String) (ws : List Write) :
    Record.Told key (pauses key ws) ((ofWrites ws).find? key) := by
  induction ws using List.reverseRecOn with
  | nil => exact rfl
  | append_singleton ws w ih =>
      rw [ofWrites_concat, find?_write, pauses_concat]
      exact ih.act w

/-! ## Flips -/

/-- The write is a call on `key` that is answered with yes: it made the record ready. -/
def flipped (s : RecordStore) (key : String) : Write → Bool
  | .ready k => (s.markReady k).1 && k = key
  | _ => false

/-- How many calls on `key` are answered that they made the record ready, in a store that goes on
from `s`. -/
def flips (key : String) : RecordStore → List Write → Nat
  | _, [] => 0
  | s, w :: ws => (s.flipped key w).toNat + flips key (s.write w) ws

/-- The flag goes up when a call is answered so. -/
theorem isReady_write (s : RecordStore) (w : Write) (key : String) :
    ((s.write w).isReady key).toNat = (s.isReady key).toNat + (s.flipped key w).toNat := by
  cases w with
  | save e => exact congrArg Bool.toNat (s.isReady_save e key)
  | pause context now => exact congrArg Bool.toNat (s.isReady_markPaused context now key)
  | ready k =>
      refine (s.isReady_markReady k key).trans (congrArg _ ?_)
      change _ = ((s.markReady k).1 && decide (k = key)).toNat
      cases (s.markReady k).1 <;> by_cases hk : k = key <;> simp [hk]

theorem isReady_writes (key : String) : ∀ (ws : List Write) (s : RecordStore),
    ((ws.foldl write s).isReady key).toNat = (s.isReady key).toNat + flips key s ws
  | [], _ => rfl
  | w :: ws, s => by
      rw [List.foldl_cons, isReady_writes key ws, isReady_write, flips, Nat.add_assoc]

theorem grows_write (s : RecordStore) : ∀ w : Write, s.Grows (s.write w)
  | .save e => s.grows_save e
  | .pause context now => s.grows_markPaused context now
  | .ready k => s.grows_markReady k

theorem grows_writes : ∀ (ws : List Write) (s : RecordStore), s.Grows (ws.foldl write s)
  | [], _ => .rfl
  | w :: ws, s => (s.grows_write w).trans (grows_writes ws _)

/-- There was a call to make the record under `key` ready, and it found one there. Those that came
too early count for nothing. -/
def Found (key : String) (ws : List Write) : Prop :=
  ∃ before after, ws = before ++ .ready key :: after ∧ ∃ r, (ofWrites before).find? key = some r

theorem Found.concat {key : String} {ws : List Write} (h : Found key ws) (w : Write) :
    Found key (ws ++ [w]) := by
  obtain ⟨before, after, rfl, hr⟩ := h
  exact ⟨before, after ++ [w], by simp, hr⟩

/-- A record is ready once a call to make it so has found it, and no sooner. It was made ready by
the first such call, which is the one that was answered with yes. -/
theorem isReady_iff_found (key : String) (ws : List Write) :
    (ofWrites ws).isReady key = true ↔ Found key ws := by
  constructor
  · intro hready
    induction ws using List.reverseRecOn with
    | nil => cases hready
    | append_singleton ws w ih =>
        cases hbefore : (ofWrites ws).isReady key with
        | true => exact (ih hbefore).concat w
        | false =>
            have hw := (ofWrites ws).isReady_write w key
            rw [← ofWrites_concat, hready, hbefore] at hw
            cases w with
            | ready k =>
                obtain ⟨hflip, rfl⟩ : ((ofWrites ws).markReady k).1 = true ∧ k = key := by
                  simpa [flipped] using hw.symm
                obtain ⟨r, hr, -⟩ := ((ofWrites ws).markReady_fst k).mp hflip
                exact ⟨ws, [], rfl, r, hr⟩
            | _ => cases hw
  · rintro ⟨before, after, rfl, r, hr⟩
    rw [ofWrites_append]
    exact (grows_writes after _).isReady (isReady_markReady_self hr)

/-! ## What a history says -/

/-- What the history `ws` of a store says of the record under `key`. Nothing of it is taken from the
fields that callers have written. -/
structure Lived (key : String) (ws : List Write) (r : Record) : Prop where
  key_eq : r.key = key
  paused : r.paused = true ↔ pauses key ws ≠ []
  retries : r.retries.toInt = (pauses key ws).length
  firstPaused : r.firstPaused = (pauses key ws).head?
  lastPaused : r.lastPaused = (pauses key ws).getLast?
  ordered : ∀ first last, r.firstPaused = some first → r.lastPaused = some last → first ≤ last
  ready : r.ready = true ↔ Found key ws

theorem head_le_getLast {l : List Instant} (h : l.Pairwise (· ≤ ·)) {first last : Instant}
    (hfirst : l.head? = some first) (hlast : l.getLast? = some last) : first ≤ last := by
  cases l with
  | nil => cases hfirst
  | cons t l =>
      obtain rfl := Option.some.inj hfirst
      rcases List.mem_cons.mp (List.mem_of_getLast? hlast) with rfl | hmem
      · exact Instant.le_refl _
      · exact (List.pairwise_cons.mp h).1 last hmem

/-- **A wait follows the history of its key.** In every run of saves, pauses and calls to make
records ready, in which the clock does not go back and nobody pauses a wait too often to count, a
record is as the history of its key says; where there is none, nothing was paused or made ready. Of
the calls to make it ready one was answered, if the record is ready, and else none. And nothing is
taken back: a record stays where it is, paused and ready if it was. -/
theorem life_follows_history (ws : List Write) (key : String)
    (hclock : (pauses key ws).Pairwise (· ≤ ·)) (hcount : (pauses key ws).length < 2 ^ 31) :
    (∀ r, (ofWrites ws).find? key = some r → Lived key ws r)
    ∧ ((ofWrites ws).find? key = none → pauses key ws = [] ∧ ¬ Found key ws)
    ∧ flips key empty ws = ((ofWrites ws).isReady key).toNat
    ∧ ∀ before, before <+: ws → (ofWrites before).Grows (ofWrites ws) := by
  have htold := told_ofWrites key ws
  have hready := isReady_iff_found key ws
  refine ⟨?record, ?absent, ?flips, ?kept⟩
  case record =>
    intro r hr
    rw [hr] at htold
    have hreadyOf : (ofWrites ws).isReady key = r.ready := by rw [isReady, hr]; rfl
    obtain ⟨hkey, hpaused, hretries, hfirst, hlast⟩ := htold
    refine ⟨hkey, ?_, ?_, hfirst, hlast, ?_, hreadyOf ▸ hready⟩
    · rw [hpaused]
      cases pauses key ws <;> simp
    · rw [hretries]
      exact Int32.toInt_ofNat_of_lt hcount
    · intro first last h h'
      exact head_le_getLast hclock (hfirst.symm.trans h) (hlast.symm.trans h')
  case absent =>
    intro hnone
    rw [hnone] at htold
    have hnot : (ofWrites ws).isReady key = false := by rw [isReady, hnone]; rfl
    exact ⟨htold, fun h => absurd (hnot.symm.trans (hready.mpr h)) (by decide)⟩
  case flips =>
    have hwrites := isReady_writes key ws empty
    exact (hwrites.trans (Nat.zero_add _)).symm
  case kept =>
    rintro before ⟨after, rfl⟩
    rw [ofWrites_append]
    exact grows_writes after _

/-- An event that comes in as if it were a wait, a wait on its record that is paused twice, and two
calls to make it ready, with one before them that finds nothing. -/
def forged : List Write :=
  let e := Record.observed "ORD1" "SHIPPED" .null default
  let wait := Record.placeholder "ORD1::SHIPPED" "ORD1" (some "SHIPPED") default
  [.ready "ORD1::SHIPPED",
    .save { e with paused := true, ready := true, retries := 7, firstPaused := some default },
    .pause { wait with retries := 9, lastPaused := some default } (.ofMillis 0 1),
    .pause wait (.ofMillis 0 2), .ready "ORD1::SHIPPED", .save { e with ready := false },
    .ready "ORD1::SHIPPED"]

theorem forged_counts :
    flips "ORD1::SHIPPED" empty forged = 1
    ∧ ∃ r, (ofWrites forged).find? "ORD1::SHIPPED" = some r ∧ r.ready = true
      ∧ r.retries.toInt = 2 ∧ r.firstPaused = some (.ofMillis 0 1)
      ∧ r.lastPaused = some (.ofMillis 0 2) := by
  have hpauses : pauses "ORD1::SHIPPED" forged = [.ofMillis 0 1, .ofMillis 0 2] := by rfl
  have hclock : (pauses "ORD1::SHIPPED" forged).Pairwise (· ≤ ·) := by
    rw [hpauses]
    decide
  have hcount : (pauses "ORD1::SHIPPED" forged).length < 2 ^ 31 := by
    rw [hpauses]
    decide
  obtain ⟨hrecord, habsent, hflips, -⟩ :=
    life_follows_history forged "ORD1::SHIPPED" hclock hcount
  have hready : (ofWrites forged).isReady "ORD1::SHIPPED" = true := by rfl
  cases hr : (ofWrites forged).find? "ORD1::SHIPPED" with
  | none => exact absurd (hpauses.symm.trans (habsent hr).1) (by decide)
  | some r =>
      have h := hrecord r hr
      rw [isReady, hr] at hready
      refine ⟨hflips.trans (by rfl), r, rfl, hready, ?_, ?_, ?_⟩
      · rw [h.retries, hpauses]; rfl
      · rw [h.firstPaused, hpauses]; rfl
      · rw [h.lastPaused, hpauses]; rfl

end RecordStore

end Rendezvous
