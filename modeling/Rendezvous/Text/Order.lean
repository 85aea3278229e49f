/-!
# The order of texts

Of two texts the one with the smaller code point at the first place where they differ comes
first, and a text comes before its extensions. The order is strict, and of two different texts
one comes before the other.
-/

namespace Rendezvous.Text

def precedes : List Char → List Char → Bool
  | _, [] => false
  | [], _ :: _ => true
  | c :: s, d :: t =>
    if c.toNat < d.toNat then true else if d.toNat < c.toNat then false else precedes s t

theorem precedes_cons {c d : Char} {s t : List Char} :
    precedes (c :: s) (d :: t) = true ↔
      c.toNat < d.toNat ∨ c.toNat = d.toNat ∧ precedes s t = true := by
  rw [precedes]
  split
  · simp_all
  · split
    · simp only [Bool.false_eq_true, false_iff]
      omega
    · rw [show c.toNat = d.toNat by omega]
      simp

theorem precedes_irrefl : ∀ s : List Char, precedes s s = false
  | [] => rfl
  | c :: s => by simp [precedes, precedes_irrefl s]

theorem precedes_trans : ∀ {s t u : List Char},
    precedes s t = true → precedes t u = true → precedes s u = true
  | _, [], _, h, _ => by simp [precedes] at h
  | _, _ :: _, [], _, h => by simp [precedes] at h
  | [], _ :: _, _ :: _, _, _ => rfl
  | c :: s, d :: t, e :: u, h, h' => by
    rw [precedes_cons] at h h' ⊢
    rcases h with h | ⟨h, hs⟩ <;> rcases h' with h' | ⟨h', ht⟩
    · exact .inl (Nat.lt_trans h h')
    · exact .inl (h' ▸ h)
    · exact .inl (h ▸ h')
    · exact .inr ⟨h.trans h', precedes_trans hs ht⟩

theorem eq_of_not_precedes : ∀ {s t : List Char},
    ¬ precedes s t = true → ¬ precedes t s = true → s = t
  | [], [], _, _ => rfl
  | [], _ :: _, h, _ => by simp [precedes] at h
  | _ :: _, [], _, h => by simp [precedes] at h
  | c :: s, d :: t, h, h' => by
    rw [precedes_cons, not_or] at h h'
    have hc : c.toNat = d.toNat := by omega
    have hs := eq_of_not_precedes (fun k => h.2 ⟨hc, k⟩) (fun k => h'.2 ⟨hc.symm, k⟩)
    rw [Char.toNat_inj.mp hc, hs]

/-- `a` comes before `b`. -/
def Before (a b : String) : Prop := precedes a.toList b.toList = true

instance (a b : String) : Decidable (Before a b) := inferInstanceAs (Decidable (_ = _))

theorem before_irrefl (a : String) : ¬ Before a a := by simp [Before, precedes_irrefl]

theorem before_trans {a b c : String} (h : Before a b) (h' : Before b c) : Before a c :=
  precedes_trans h h'

theorem before_asymm {a b : String} (h : Before a b) : ¬ Before b a :=
  fun h' => before_irrefl a (before_trans h h')

theorem eq_of_not_before {a b : String} (h : ¬ Before a b) (h' : ¬ Before b a) : a = b :=
  String.toList_inj.mp (eq_of_not_precedes h h')

end Rendezvous.Text
