import Rendezvous.Proofs.Writes

/-!
# Which records are ready

A record is ready once a call made it so and the store answered `true`; no other write changes
that. When records are only made ready as waits, only waits are ready
(`RecordStore.ReadyPaused`): a wait stays one.
-/

namespace Rendezvous

def Request.LeavesFlags : Request → Prop
  | .events (.markReady _) => False
  | _ => True

theorem Request.SparesRecords.leavesFlags {r : Request} (h : r.SparesRecords) :
    r.LeavesFlags := by
  cases r with
  | events c =>
      cases c with
      | markReady => exact h
      | _ => trivial
  | _ => trivial

theorem Proc.Asks.leavesFlags {α : Type} {p : Proc α} (h : p.Asks Request.SparesRecords) :
    p.Asks Request.LeavesFlags := h.mono fun _ => Request.SparesRecords.leavesFlags

namespace RecordStore

/-- Every ready record is that of a wait. The store does not see to it; that the engine asks for
waits only does. -/
def ReadyPaused (s : RecordStore) : Prop := s.All fun _ r => r.ready = true → r.paused = true

variable {s : RecordStore}

theorem isReady_save (s : RecordStore) (e : Record) (key : String) :
    (s.save e).isReady key = s.isReady key := by
  rw [isReady, isReady, find?_save]
  split
  · cases s.find? key with
    | none => rfl
    | some r => exact r.merge_ready e
  · rfl

theorem isReady_markPaused (s : RecordStore) (context : Record) (now : Instant) (key : String) :
    (s.markPaused context now).isReady key = s.isReady key := by
  rw [isReady, isReady, find?_markPaused]
  split
  · cases s.find? key <;> rfl
  · rfl

/-- The flag under `key` goes up if it is down and a call on `key` is answered `true`. -/
theorem isReady_markReady (s : RecordStore) (k key : String) :
    ((s.markReady k).2.isReady key).toNat
      = (s.isReady key).toNat + if (s.markReady k).1 = true ∧ k = key then 1 else 0 := by
  have hfst := s.markReady_fst k
  rw [isReady, isReady, find?_markReady]
  by_cases hk : key = k
  · subst hk
    rw [if_pos rfl]
    cases hr : s.find? key with
    | none =>
        rw [if_neg]
        · rfl
        · rintro ⟨h, -⟩
          obtain ⟨r, hr', -⟩ := hfst.mp h
          rw [hr] at hr'
          cases hr'
    | some r =>
        cases hready : r.ready with
        | true =>
            rw [if_neg]
            · simp [hready]
            · rintro ⟨h, -⟩
              obtain ⟨r', hr', hn⟩ := hfst.mp h
              obtain rfl := Option.some.inj (hr.symm.trans hr')
              exact absurd (hready.symm.trans hn) (by decide)
        | false =>
            rw [if_pos ⟨hfst.mpr ⟨r, hr, hready⟩, rfl⟩]
            simp [hready]
  · rw [if_neg hk, if_neg fun h => hk h.2.symm, Nat.add_zero]

theorem ReadyPaused.save (h : s.ReadyPaused) (e : Record) : (s.save e).ReadyPaused := by
  refine All.save h (fun hready => by cases hready) fun r hr hready => ?_
  rw [Record.merge_ready] at hready
  rw [Record.merge_paused]
  exact h _ r hr hready

theorem ReadyPaused.markPaused (h : s.ReadyPaused) (context : Record) (now : Instant) :
    (s.markPaused context now).ReadyPaused := All.markPaused h (fun _ => rfl) fun _ _ _ => rfl

theorem ReadyPaused.markReady (h : s.ReadyPaused) {k : String}
    (hk : ∀ r, s.find? k = some r → r.paused = true) : (s.markReady k).2.ReadyPaused :=
  All.markReady h fun r hr _ => hk r hr

end RecordStore

namespace State

theorem isReady_reply {r : Request} (hr : r.LeavesFlags) (x : Exposure) (fault : Option Fault)
    (s : State) (key : String) :
    (reply x fault r s).2.events.isReady key = s.events.isReady key := by
  have hw := written_reply x fault r s
  generalize (reply x fault r s).2.events = t at hw ⊢
  cases hw with
  | spared => rfl
  | saved e => exact s.events.isReady_save e key
  | paused context => exact s.events.isReady_markPaused context _ key
  | ready => exact hr.elim

theorem readyPaused_reply {s : State} (h : s.events.ReadyPaused) {r : Request} (hr : r.LeavesFlags)
    (x : Exposure) (fault : Option Fault) : (reply x fault r s).2.events.ReadyPaused := by
  have hw := written_reply x fault r s
  generalize (reply x fault r s).2.events = t at hw ⊢
  cases hw with
  | spared => exact h
  | saved e => exact h.save e
  | paused context => exact h.markPaused context _
  | ready => exact hr.elim

end State

end Rendezvous
