import Mathlib.Data.List.TakeWhile
import Mathlib.Data.Nat.Digits.Defs
import Rendezvous.Text.Count

/-!
# Which texts are counts

What reading a count comes to, said without the reader. A text is trimmed when the blanks around it
are gone and it has none left at either end (`Trims`). It is the numeral of a number if digits stand
in it, behind a plus sign or not, and that is their value (`Numeral`); a reader that stops at a
greatest number reads all numerals up to it and no other text (`readCount_ok_iff`). What is wrong
with a text that is not read is decided by what comes first in it: a character that is no digit, or
the digit that makes the number too large (`readCount_error_iff`).
-/

namespace Rendezvous.Text

/-! ## Trimming -/

/-- The text `t` is `s` without the blanks around it. There is only one such text, which `trim`
finds. -/
structure Trims (s t : List Char) : Prop where
  around : ∃ before after, s = before ++ t ++ after
    ∧ (∀ c ∈ before, isBlank c = true) ∧ ∀ c ∈ after, isBlank c = true
  head : ∀ c ∈ t.head?, isBlank c = false
  last : ∀ c ∈ t.getLast?, isBlank c = false

/-- Blanks in front are dropped up to a text that starts with none. -/
theorem dropWhile_isBlank_append {before t : List Char} (hb : ∀ c ∈ before, isBlank c = true)
    (ht : ∀ c ∈ t.head?, isBlank c = false) : (before ++ t).dropWhile isBlank = t := by
  rw [List.dropWhile_append_of_pos hb]
  cases t with
  | nil => rfl
  | cons c t => rw [List.dropWhile_cons, ht c rfl, if_neg Bool.false_ne_true]

theorem head_dropWhile_isBlank {s : List Char} :
    ∀ c ∈ (s.dropWhile isBlank).head?, isBlank c = false := by
  intro c hc
  have hhead := List.head?_dropWhile_not isBlank s
  rw [Option.mem_def.mp hc] at hhead
  exact hhead

theorem blank_takeWhile {s : List Char} : ∀ c ∈ s.takeWhile isBlank, isBlank c = true :=
  fun _ hc => List.mem_takeWhile_imp hc

theorem trims_trim (s : List Char) : Trims s (trim s) := by
  have hback := List.takeWhile_append_dropWhile (p := isBlank) (l := (trimStart s).reverse)
  have hsplit : trimStart s = trim s ++ ((trimStart s).reverse.takeWhile isBlank).reverse := by
    have hturned := congrArg List.reverse hback
    rw [List.reverse_append, List.reverse_reverse] at hturned
    exact hturned.symm
  refine ⟨⟨s.takeWhile isBlank, ((trimStart s).reverse.takeWhile isBlank).reverse, ?_, ?_, ?_⟩,
    ?_, ?_⟩
  · rw [List.append_assoc, ← hsplit]
    exact List.takeWhile_append_dropWhile.symm
  · exact blank_takeWhile
  · intro c hc
    exact blank_takeWhile c (List.mem_reverse.mp hc)
  · intro c hc
    refine head_dropWhile_isBlank (s := s) c ?_
    change c ∈ (trimStart s).head?
    rw [hsplit, List.head?_append, Option.mem_def.mp hc]
    rfl
  · intro c hc
    rw [trim, trimEnd, List.getLast?_reverse] at hc
    exact head_dropWhile_isBlank c hc

theorem Trims.eq_trim {s t : List Char} (h : Trims s t) : t = trim s := by
  obtain ⟨⟨before, after, rfl, hb, ha⟩, hhead, hlast⟩ := h
  cases t with
  | nil =>
      have hall : ∀ c ∈ before ++ [] ++ after, isBlank c = true := by
        intro c hc
        rw [List.append_nil] at hc
        exact (List.mem_append.mp hc).elim (hb c) (ha c)
      rw [trim, trimStart, List.dropWhile_eq_nil_iff.mpr hall]
      rfl
  | cons c t =>
      have hstart : trimStart (before ++ c :: t ++ after) = c :: t ++ after := by
        rw [trimStart, List.append_assoc]
        exact dropWhile_isBlank_append hb fun d hd => hhead d hd
      have hend : ∀ d ∈ (c :: t).reverse.head?, isBlank d = false := by
        intro d hd
        rw [List.head?_reverse] at hd
        exact hlast d hd
      rw [trim, hstart, trimEnd, List.reverse_append, dropWhile_isBlank_append
        (fun d hd => ha d (List.mem_reverse.mp hd)) hend, List.reverse_reverse]

theorem trims_iff {s t : List Char} : Trims s t ↔ t = trim s :=
  ⟨Trims.eq_trim, fun h => h ▸ trims_trim s⟩

/-! ## Numerals -/

/-- All characters are digits of ASCII. Digits of other scripts do not count. -/
def Digits (s : List Char) : Prop := ∀ c ∈ s, c.isDigit = true

def digit (c : Char) : Nat := c.toNat - '0'.toNat

def value (s : List Char) : Nat := Nat.ofDigits 10 (s.map digit).reverse

def unsigned : List Char → List Char
  | '+' :: s => s
  | s => s

/-- The text is one or more digits with the value `n`, a plus sign before them or not. There may be
zeros in front. -/
structure Numeral (s : List Char) (n : Nat) : Prop where
  ne_nil : unsigned s ≠ []
  digits : Digits (unsigned s)
  value_eq : value (unsigned s) = n

/-- What is wrong with a text that is not the numeral of a number up to `greatest`. Exactly one of
these is, since the text is read from the left. -/
def Misread (greatest : Nat) (s : List Char) : CountError → Prop
  | .empty => s = []
  | .notDigit => s ≠ [] ∧ (unsigned s = [] ∨ ∃ ds c rest, unsigned s = ds ++ c :: rest
      ∧ Digits ds ∧ value ds ≤ greatest ∧ c.isDigit = false)
  | .tooLarge => ∃ ds, ds <+: unsigned s ∧ Digits ds ∧ greatest < value ds

theorem value_cons (c : Char) (s : List Char) :
    value (c :: s) = digit c * 10 ^ s.length + value s := by
  rw [value, List.map_cons, List.reverse_cons, Nat.ofDigits_append, List.length_reverse,
    List.length_map, Nat.ofDigits_singleton, Nat.mul_comm, Nat.add_comm]
  rfl

/-- The value of digits that are read on from `n`, which the digits before them have. -/
def onward (n : Nat) (s : List Char) : Nat := n * 10 ^ s.length + value s

@[simp] theorem onward_nil (n : Nat) : onward n [] = n := by simp [onward, value]

theorem onward_cons (n : Nat) (c : Char) (s : List Char) :
    onward n (c :: s) = onward (10 * n + digit c) s := by
  rw [onward, onward, value_cons, List.length_cons, Nat.pow_succ]
  ring

theorem onward_zero (s : List Char) : onward 0 s = value s := by simp [onward]

/-- The number only grows as digits are read. -/
theorem le_onward (n : Nat) (s : List Char) : n ≤ onward n s :=
  Nat.le_add_right_of_le (Nat.le_mul_of_pos_right n (Nat.pow_pos (by decide)))

theorem digits_cons {c : Char} {s : List Char} : Digits (c :: s) ↔ c.isDigit = true ∧ Digits s :=
  List.forall_mem_cons

theorem digits_nil : Digits [] := fun _ h => nomatch h

/-! ## Reading digits -/

variable {greatest n m : Nat} {c : Char} {s : List Char}

theorem readDigits_cons_of_not_digit (h : c.isDigit = false) :
    readDigits greatest n (c :: s) = .error .notDigit := by
  rw [readDigits, digit?, h]
  rfl

theorem readDigits_cons_of_digit (h : c.isDigit = true) : readDigits greatest n (c :: s)
    = if 10 * n + digit c ≤ greatest then readDigits greatest (10 * n + digit c) s
      else .error .tooLarge := by
  rw [readDigits, digit?, h]
  rfl

theorem readDigits_ok_iff (hn : n ≤ greatest) : readDigits greatest n s = .ok m
    ↔ Digits s ∧ onward n s = m ∧ m ≤ greatest := by
  induction s generalizing n with
  | nil =>
      rw [readDigits, Except.ok.injEq, onward_nil]
      constructor
      · rintro rfl
        exact ⟨digits_nil, rfl, hn⟩
      · exact fun h => h.2.1
  | cons c s ih =>
      rw [digits_cons, onward_cons]
      cases hc : c.isDigit with
      | false =>
          rw [readDigits_cons_of_not_digit hc]
          simp
      | true =>
          rw [readDigits_cons_of_digit hc]
          split
          · rename_i hle
            rw [ih hle]
            simp
          · rename_i hgt
            refine iff_of_false (by simp) ?_
            rintro ⟨-, rfl, hle⟩
            exact hgt ((le_onward _ s).trans hle)

theorem readDigits_tooLarge_iff (hn : n ≤ greatest) : readDigits greatest n s = .error .tooLarge
    ↔ ∃ ds, ds <+: s ∧ Digits ds ∧ greatest < onward n ds := by
  induction s generalizing n with
  | nil =>
      rw [readDigits]
      refine iff_of_false (by simp) ?_
      rintro ⟨ds, hds, -, hlt⟩
      rw [List.prefix_nil.mp hds, onward_nil] at hlt
      omega
  | cons c s ih =>
      have hstart : (∃ ds, ds <+: c :: s ∧ Digits ds ∧ greatest < onward n ds)
          ↔ c.isDigit = true ∧ ∃ ds, ds <+: s ∧ Digits ds
            ∧ greatest < onward (10 * n + digit c) ds := by
        constructor
        · rintro ⟨ds, hds, hdigits, hlt⟩
          rcases List.prefix_cons_iff.mp hds with rfl | ⟨es, rfl, hes⟩
          · rw [onward_nil] at hlt
            omega
          · rw [digits_cons] at hdigits
            rw [onward_cons] at hlt
            exact ⟨hdigits.1, es, hes, hdigits.2, hlt⟩
        · rintro ⟨hc, ds, hds, hdigits, hlt⟩
          refine ⟨c :: ds, List.cons_prefix_cons.mpr ⟨rfl, hds⟩, digits_cons.mpr ⟨hc, hdigits⟩, ?_⟩
          rw [onward_cons]
          exact hlt
      rw [hstart]
      cases hc : c.isDigit with
      | false =>
          rw [readDigits_cons_of_not_digit hc]
          simp
      | true =>
          rw [readDigits_cons_of_digit hc]
          split
          · rename_i hle
            rw [ih hle]
            simp
          · rename_i hgt
            refine iff_of_true rfl ⟨rfl, [], List.nil_prefix, digits_nil, ?_⟩
            rw [onward_nil]
            omega

theorem readDigits_notDigit_iff (hn : n ≤ greatest) : readDigits greatest n s = .error .notDigit
    ↔ ∃ ds c rest, s = ds ++ c :: rest ∧ Digits ds ∧ onward n ds ≤ greatest
      ∧ c.isDigit = false := by
  induction s generalizing n with
  | nil =>
      rw [readDigits]
      simp
  | cons c s ih =>
      cases hc : c.isDigit with
      | false =>
          rw [readDigits_cons_of_not_digit hc]
          refine iff_of_true rfl ⟨[], c, s, rfl, digits_nil, ?_, hc⟩
          rw [onward_nil]
          exact hn
      | true =>
          have hstart : (∃ ds d rest, c :: s = ds ++ d :: rest ∧ Digits ds ∧ onward n ds ≤ greatest
                ∧ d.isDigit = false)
              ↔ ∃ ds d rest, s = ds ++ d :: rest ∧ Digits ds
                ∧ onward (10 * n + digit c) ds ≤ greatest ∧ d.isDigit = false := by
            constructor
            · rintro ⟨ds, d, rest, heq, hdigits, hle, hd⟩
              rcases List.cons_eq_append_iff.mp heq with ⟨rfl, hrest⟩ | ⟨es, rfl, hrest⟩
              · obtain ⟨rfl, -⟩ := List.cons.inj hrest
                exact absurd (hc.symm.trans hd) (by decide)
              · rw [onward_cons] at hle
                exact ⟨es, d, rest, hrest, (digits_cons.mp hdigits).2, hle, hd⟩
            · rintro ⟨ds, d, rest, rfl, hdigits, hle, hd⟩
              refine ⟨c :: ds, d, rest, rfl, digits_cons.mpr ⟨hc, hdigits⟩, ?_, hd⟩
              rw [onward_cons]
              exact hle
          rw [hstart, readDigits_cons_of_digit hc]
          split
          · rename_i hle
            exact ih hle
          · rename_i hgt
            refine iff_of_false (by simp) ?_
            rintro ⟨ds, d, rest, -, -, hle, -⟩
            exact hgt ((le_onward _ ds).trans hle)

theorem readDigits_ne_empty : readDigits greatest n s ≠ .error .empty := by
  induction s generalizing n with
  | nil => simp [readDigits]
  | cons c s ih =>
      cases hc : c.isDigit with
      | false => simp [readDigits_cons_of_not_digit hc]
      | true =>
          rw [readDigits_cons_of_digit hc]
          split
          · exact ih
          · simp

/-! ## Reading counts -/

theorem readCount_eq (greatest : Nat) (s : List Char) : readCount greatest s
    = if s = [] then .error .empty
      else if unsigned s = [] then .error .notDigit
      else readDigits greatest 0 (unsigned s) := by
  unfold readCount unsigned
  split <;> simp_all

theorem readCount_ok_iff : readCount greatest s = .ok m ↔ Numeral s m ∧ m ≤ greatest := by
  rw [readCount_eq]
  split
  · subst s
    refine iff_of_false (by simp) ?_
    rintro ⟨h, -⟩
    exact h.ne_nil rfl
  · split
    · rename_i hnil
      refine iff_of_false (by simp) ?_
      rintro ⟨h, -⟩
      exact h.ne_nil hnil
    · rename_i hnil
      rw [readDigits_ok_iff (Nat.zero_le _), onward_zero]
      constructor
      · rintro ⟨hdigits, rfl, hle⟩
        exact ⟨⟨hnil, hdigits, rfl⟩, hle⟩
      · rintro ⟨⟨-, hdigits, rfl⟩, hle⟩
        exact ⟨hdigits, rfl, hle⟩

theorem readCount_error_iff {cause : CountError} :
    readCount greatest s = .error cause ↔ Misread greatest s cause := by
  rw [readCount_eq]
  cases s with
  | nil => cases cause <;> simp [Misread, unsigned, value]
  | cons c s =>
      rw [if_neg (List.cons_ne_nil c s)]
      split
      · rename_i hnil
        cases cause <;> simp [Misread, hnil, value]
      · rename_i hnil
        cases cause with
        | empty =>
            refine iff_of_false readDigits_ne_empty ?_
            exact List.cons_ne_nil c s
        | notDigit =>
            rw [readDigits_notDigit_iff (Nat.zero_le _)]
            simp [Misread, hnil, onward_zero]
        | tooLarge =>
            rw [readDigits_tooLarge_iff (Nat.zero_le _)]
            simp [Misread, onward_zero]

end Rendezvous.Text
