/-!
# Instants

A point of time is a count of seconds since the start of 1970 (UTC) and nanoseconds within the
second. A leap second has no count of its own: its nanoseconds go on above 10^9 in the second
before it. Instants are ordered by second, then by nanosecond.
-/

namespace Rendezvous

/-- A point of time. The bound on its nanoseconds is that of a leap second, which is counted in the
second before it; instants beyond the bound cannot be built. -/
structure Instant where
  seconds : Int
  nanos : Nat
  nanos_lt : nanos < 2000000000 := by omega
deriving DecidableEq

namespace Instant

instance : Inhabited Instant := ⟨{ seconds := 0, nanos := 0 }⟩

/-- The order of instants: by second, then by nanosecond. A leap second comes after the second that
it follows and before the next one. -/
def Before (a b : Instant) : Prop :=
  a.seconds < b.seconds ∨ a.seconds = b.seconds ∧ a.nanos < b.nanos

instance : LT Instant := ⟨Before⟩

instance : LE Instant := ⟨fun a b => ¬ b < a⟩

instance (a b : Instant) : Decidable (a < b) :=
  inferInstanceAs (Decidable (_ ∨ _ ∧ _))

instance (a b : Instant) : Decidable (a ≤ b) := inferInstanceAs (Decidable (¬ _))

theorem lt_iff {a b : Instant} :
    a < b ↔ a.seconds < b.seconds ∨ a.seconds = b.seconds ∧ a.nanos < b.nanos := Iff.rfl

theorem le_iff {a b : Instant} :
    a ≤ b ↔ a.seconds < b.seconds ∨ a.seconds = b.seconds ∧ a.nanos ≤ b.nanos := by
  show ¬ (b < a) ↔ _
  rw [lt_iff]
  omega

theorem le_refl (a : Instant) : a ≤ a := by rw [le_iff]; omega

theorem le_trans {a b c : Instant} (h : a ≤ b) (h' : b ≤ c) : a ≤ c := by
  rw [le_iff] at *; omega

theorem le_total (a b : Instant) : a ≤ b ∨ b ≤ a := by
  simp only [le_iff]; omega

theorem le_antisymm {a b : Instant} (h : a ≤ b) (h' : b ≤ a) : a = b := by
  rw [le_iff] at *
  cases a; cases b
  simp only [mk.injEq] at *
  omega

/-- The instant `ms` milliseconds after the second `seconds`. It is never within a leap second, as
clocks do not show them. -/
def ofMillis (seconds : Int) (ms : Nat) : Instant where
  seconds := seconds + ms / 1000
  nanos := ms % 1000 * 1000000

end Instant

end Rendezvous
