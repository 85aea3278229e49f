import Rendezvous.Instant.Writer
import Rendezvous.Proofs.Calendar
import Rendezvous.Proofs.Numerals

/-!
# Timestamps read back

A timestamp is a row of numbers with a mark behind each. The reader takes as many digits as it
finds, within limits, so what the proof needs of a number is that its text has digits only, fits the
limit, and is followed by none (`readNumber_append`). The texts of the fraction have three, six or
nine digits or are left out; the reader scales by as many places as are missing
(`readFraction_text`). Every ordinary time, then, is read back from its text (`read?_text`).
-/

namespace Rendezvous

namespace Text

theorem toList_pushn (s : String) (c : Char) (n : Nat) :
    (s.pushn c n).toList = s.toList ++ List.replicate n c := by
  rw [String.pushn_eq_repeat_push]
  induction n with
  | zero => exact (List.append_nil _).symm
  | succ n ih => rw [Nat.repeat, String.toList_push, ih, List.append_assoc, List.replicate_succ']

theorem toList_padded (width n : Nat) : (padded width n).toList
    = List.replicate (width - (Nat.toDigits 10 n).length) '0' ++ Nat.toDigits 10 n := by
  have hn : (toString n).toList = Nat.toDigits 10 n := Nat.toList_repr
  simp only [padded]
  rw [String.toList_append, toList_pushn, hn, ← String.length_toList, hn]
  rfl

theorem digits_padded (width n : Nat) : Digits (padded width n).toList := by
  intro c hc
  rw [toList_padded] at hc
  rcases List.mem_append.mp hc with hc | hc
  · rw [List.eq_of_mem_replicate hc]
    rfl
  · exact Nat.isDigit_of_mem_toDigits (by decide) (by decide) hc

theorem length_padded {width n : Nat} (hw : 0 < width) (hn : n < 10 ^ width) :
    (padded width n).toList.length = width := by
  have hle := (Nat.length_toDigits_le_iff (b := 10) (by decide) hw).mpr hn
  rw [toList_padded, List.length_append, List.length_replicate]
  omega

theorem padded_ne_nil (width n : Nat) : (padded width n).toList ≠ [] := by
  rw [toList_padded]
  exact List.append_ne_nil_of_right_ne_nil _ Nat.toDigits_ne_nil

theorem isBlank_eq_false {c : Char} (h : 0x21 ≤ c.toNat) (h' : c.toNat ≤ 0x7E) :
    isBlank c = false := by
  simp only [isBlank, blankRuns, List.any_cons, List.any_nil, Bool.or_eq_false_iff,
    Bool.and_eq_false_iff, decide_eq_false_iff_not, and_true]
  omega

theorem isBlank_of_isDigit {c : Char} (h : c.isDigit = true) : isBlank c = false := by
  obtain ⟨hle, hle'⟩ := Char.isDigit_iff_toNat.mp h
  exact isBlank_eq_false (Nat.le_trans (by decide) hle) (Nat.le_trans hle' (by decide))

theorem trimStart_digits {ds rest : List Char} (hd : Digits ds) (hne : ds ≠ []) :
    trimStart (ds ++ rest) = ds ++ rest := by
  cases ds with
  | nil => exact absurd rfl hne
  | cons c ds =>
      have hc := isBlank_of_isDigit (hd c List.mem_cons_self)
      rw [List.cons_append, trimStart, List.dropWhile_cons, hc, if_neg Bool.false_ne_true]

end Text

namespace Instant

open Text (Digits padded)

/-- No digit follows, so a number that was taken in front of this is complete. -/
def Ends (rest : Rest) : Prop := ∀ c ∈ rest.head?, c.isDigit = false

variable {ds rest : List Char} {n : Nat}

theorem ends_cons {c : Char} (h : c.isDigit = false) (s : Rest) : Ends (c :: s) := by
  intro d hd
  rw [← Option.some.inj hd]
  exact h

theorem value_padded (width n : Nat) : value (padded width n).toList = n := by
  change Nat.ofDigitChars 10 (padded width n).toList 0 = n
  rw [Text.toList_padded, Nat.ofDigitChars_append, Nat.ofDigitChars_replicate_zero, Nat.mul_zero]
  exact Nat.ofDigitChars_ten_toDigits

/-! ## Numbers -/

theorem takeWhile_digits (hd : Digits ds) (hrest : Ends rest) :
    (ds ++ rest).takeWhile Char.isDigit = ds := by
  rw [List.takeWhile_append_of_pos hd]
  cases rest with
  | nil => exact List.append_nil ds
  | cons c rest => rw [List.takeWhile_cons, hrest c rfl, if_neg Bool.false_ne_true, List.append_nil]

theorem Ends.take (h : Ends rest) (n : Nat) : Ends (rest.take n) := by
  intro c hc
  cases n with
  | zero => cases hc
  | succ n => exact h c (by rwa [List.head?_take, if_neg (Nat.succ_ne_zero n)] at hc)

theorem takeWhile_take {most : Nat} (hd : Digits ds) (hlen : ds.length ≤ most)
    (hrest : Ends rest) : ((ds ++ rest).take most).takeWhile Char.isDigit = ds := by
  rw [List.take_append, List.take_of_length_le hlen]
  exact takeWhile_digits hd (hrest.take _)

theorem readNumber_append {most : Nat} (hd : Digits ds) (hne : ds ≠ []) (hlen : ds.length ≤ most)
    (hrest : Ends rest) : readNumber most (ds ++ rest) = some (value ds, rest) := by
  unfold readNumber
  rw [takeWhile_take hd hlen hrest]
  cases ds with
  | nil => exact absurd rfl hne
  | cons c ds => exact congrArg (fun s => some (_, s)) List.drop_left

theorem readField_padded {w : Nat} (hw : 0 < w) (hn : n < 10 ^ w) (hrest : Ends rest) :
    readField w ((padded w n).toList ++ rest) = some (n, rest) := by
  have hd := Text.digits_padded w n
  have hne := Text.padded_ne_nil w n
  rw [readField, Text.trimStart_digits hd hne,
    readNumber_append hd hne (Text.length_padded hw hn).le hrest, value_padded]

theorem readYear_minus (s : Rest) :
    readYear ('-' :: s) = (readNumber s.length s).map fun (y, s) => (-y, s) := rfl

theorem readYear_plus (s : Rest) :
    readYear ('+' :: s) = (readNumber s.length s).map fun (y, s) => ((y : Int), s) := rfl

theorem readYear_digits (hd : Digits ds) (hne : ds ≠ []) :
    readYear (ds ++ rest) = (readNumber 4 (ds ++ rest)).map fun (y, s) => ((y : Int), s) := by
  have hsign : ∀ sign : Char, sign.isDigit = false → ∀ s, ds ++ rest ≠ sign :: s := by
    intro sign hsign s h
    cases ds with
    | nil => exact hne rfl
    | cons c ds =>
        have hc := hd c List.mem_cons_self
        rw [(List.cons.inj h).1, hsign] at hc
        cases hc
  unfold readYear
  rw [Text.trimStart_digits hd hne]
  split
  · exact absurd ‹_› (hsign '-' rfl _)
  · exact absurd ‹_› (hsign '+' rfl _)
  · rfl

/-- A year of four digits stands alone; any other has a sign, and then all its digits count. -/
theorem readYear_yearText (y : Int) (hrest : Ends rest) :
    readYear ((yearText y).toList ++ rest) = some (y, rest) := by
  have hdigits : ∀ n, readNumber ((padded 4 n).toList ++ rest).length
      ((padded 4 n).toList ++ rest) = some (n, rest) := by
    intro n
    rw [readNumber_append (Text.digits_padded 4 n) (Text.padded_ne_nil 4 n) (by simp) hrest,
      value_padded]
  have hminus : "-".toList = ['-'] := rfl
  have hplus : "+".toList = ['+'] := rfl
  unfold yearText
  split
  · have hlen : (padded 4 y.toNat).toList.length = 4 :=
      Text.length_padded (by decide) (by omega)
    rw [readYear_digits (Text.digits_padded 4 _) (Text.padded_ne_nil 4 _),
      readNumber_append (Text.digits_padded 4 _) (Text.padded_ne_nil 4 _) hlen.le hrest,
      value_padded]
    exact congrArg (fun z => some (z, rest)) (Int.toNat_of_nonneg (by omega))
  · split
    · rw [String.toList_append, hminus, List.cons_append, List.nil_append, List.cons_append,
        readYear_minus, hdigits]
      exact congrArg (fun z => some (z, rest)) (by omega)
    · rw [String.toList_append, hplus, List.cons_append, List.nil_append, List.cons_append,
        readYear_plus, hdigits]
      exact congrArg (fun z => some (z, rest)) (by omega)

/-! ## Fractions -/

theorem readFraction_append (hd : Digits ds) (hne : ds ≠ []) (hlen : ds.length ≤ 9)
    (hrest : Ends rest) :
    readFraction ('.' :: (ds ++ rest)) = some (value ds * 10 ^ (9 - ds.length), rest) := by
  have hdrop : (ds ++ rest).dropWhile Char.isDigit = rest := by
    rw [List.dropWhile_append_of_pos hd]
    cases rest with
    | nil => rfl
    | cons c rest => rw [List.dropWhile_cons, hrest c rfl, if_neg Bool.false_ne_true]
  simp only [readFraction, takeWhile_take hd hlen hrest, hdrop]
  cases ds with
  | nil => exact absurd rfl hne
  | cons c ds => rfl

theorem readFraction_padded {width : Nat} (hw : 0 < width) (hw' : width ≤ 9)
    (hn : n < 10 ^ width) (hrest : Ends rest) :
    readFraction (("." ++ padded width n).toList ++ rest) = some (n * 10 ^ (9 - width), rest) := by
  have hlen := Text.length_padded hw hn
  have hpoint : ("." ++ padded width n).toList = '.' :: (padded width n).toList :=
    String.toList_append
  rw [hpoint, List.cons_append, readFraction_append (Text.digits_padded width n)
    (Text.padded_ne_nil width n) (hlen.trans_le hw') hrest, value_padded, hlen]

theorem readFraction_none (hrest : rest.head? ≠ some '.') : readFraction rest = some (0, rest) := by
  unfold readFraction
  split
  · exact absurd rfl hrest
  · rfl

/-- A fraction is left out, or the digits left out of it are zeros. So it stands for the same number
of nanoseconds. -/
theorem fractionText_cases (hn : n < 1000000000) : n = 0 ∧ fractionText n = "" ∨
    ∃ width m, fractionText n = "." ++ padded width m ∧ 0 < width ∧ width ≤ 9 ∧ m < 10 ^ width
      ∧ m * 10 ^ (9 - width) = n := by
  unfold fractionText
  split
  · exact .inl ⟨‹_›, rfl⟩
  · split
    · exact .inr ⟨3, n / 1000000, rfl, by decide, by decide, by omega, by omega⟩
    · split
      · exact .inr ⟨6, n / 1000, rfl, by decide, by decide, by omega, by omega⟩
      · exact .inr ⟨9, n, rfl, by decide, by decide, hn, Nat.mul_one n⟩

theorem readFraction_text (hn : n < 1000000000) (hrest : Ends rest)
    (hpoint : rest.head? ≠ some '.') :
    readFraction ((fractionText n).toList ++ rest) = some (n, rest) := by
  rcases fractionText_cases hn with ⟨rfl, htext⟩ | ⟨width, m, htext, hw, hw', hm, rfl⟩
  · rw [htext]
    exact readFraction_none hpoint
  · rw [htext]
    exact readFraction_padded hw hw' hm hrest

theorem ends_fractionText (hn : n < 1000000000) (hrest : Ends rest) :
    Ends ((fractionText n).toList ++ rest) := by
  rcases fractionText_cases hn with ⟨-, htext⟩ | ⟨width, m, htext, -⟩
  · rw [htext]
    exact hrest
  · rw [htext, String.toList_append]
    exact ends_cons rfl _

/-! ## The whole text -/

theorem toList_text (t : Instant) : t.text.toList =
    (yearText t.dateTime.date.year).toList ++ '-' :: ((padded 2 t.dateTime.date.month).toList
      ++ '-' :: ((padded 2 t.dateTime.date.day).toList
      ++ 'T' :: ((padded 2 t.dateTime.hour).toList ++ ':' :: ((padded 2 t.dateTime.minute).toList
      ++ ':' :: ((padded 2 t.dateTime.second).toList
      ++ ((fractionText t.dateTime.nanos).toList ++ ['Z'])))))) := by
  have hdash : "-".toList = ['-'] := rfl
  have hcolon : ":".toList = [':'] := rfl
  have htee : "T".toList = ['T'] := rfl
  have hzone : "Z".toList = ['Z'] := rfl
  simp only [text, localText, toString, String.toList_append, List.append_assoc, hdash, hcolon,
    htee, hzone, List.cons_append, List.nil_append]

/-- The parts of the date and time fit the places that they are written in. Those of an instant
do. -/
structure Fits (t : DateTime) : Prop where
  month : t.date.month < 100
  day : t.date.day < 100
  hour : t.hour < 100
  minute : t.minute < 100
  second : t.second < 100
  nanos : t.nanos < 1000000000

theorem Ordinary.fits {t : Instant} (h : t.Ordinary) : Fits t.dateTime := by
  have hvalid : t.date.valid = true := Date.valid_ofDays h.first_le h.le_last
  have hlength := Date.daysInMonth_le t.date.year t.date.month
  simp only [Date.valid, Bool.and_eq_true, decide_eq_true_eq] at hvalid
  rw [dateTime_eq h.nanos_lt]
  refine ⟨?_, ?_, ?_, ?_, ?_, h.nanos_lt⟩
  all_goals
    dsimp only
    omega

theorem readDate_text {t : DateTime} (h : Fits t) (hrest : Ends rest) :
    readDate ((yearText t.date.year).toList ++ '-' :: ((padded 2 t.date.month).toList
      ++ '-' :: ((padded 2 t.date.day).toList ++ rest))) = some (t.date, rest) := by
  have hmark : ∀ s, readMark '-' ('-' :: s) = some s := fun _ => rfl
  simp only [readDate, readYear_yearText _ (ends_cons (c := '-') rfl _), hmark,
    readField_padded (w := 2) (by decide) h.month (ends_cons (c := '-') rfl _),
    readField_padded (w := 2) (by decide) h.day hrest, Option.bind_eq_bind, Option.bind_some]
  rfl

theorem readTime_text {t : DateTime} (h : Fits t) :
    readTime t.date ((padded 2 t.hour).toList ++ ':' :: ((padded 2 t.minute).toList
      ++ ':' :: ((padded 2 t.second).toList ++ ((fractionText t.nanos).toList ++ ['Z']))))
      = some (t, ['Z']) := by
  have hmark : ∀ s, readMark ':' (':' :: s) = some s := fun _ => rfl
  have hzone : Ends ['Z'] := ends_cons rfl []
  simp only [readTime, hmark,
    readField_padded (w := 2) (by decide) h.hour (ends_cons (c := ':') rfl _),
    readField_padded (w := 2) (by decide) h.minute (ends_cons (c := ':') rfl _),
    readField_padded (w := 2) (by decide) h.second (ends_fractionText h.nanos hzone),
    readFraction_text h.nanos hzone (by decide), Option.bind_eq_bind, Option.bind_some]
  rfl

/-- An ordinary time is read back from its text. The readers take their parts in turn, each leaving
the rest of the text to the next. -/
theorem read?_text {t : Instant} (h : t.Ordinary) : read? t.text = some t := by
  have hzone : readZone (Text.trimStart ['Z']) = some (0, []) := rfl
  simp only [read?, toList_text, readDate_text h.fits (ends_cons (c := 'T') rfl _),
    readTime_text h.fits, hzone, Option.bind_eq_bind, Option.bind_some, List.all_nil, if_true]
  exact ofDateTime?_dateTime h

end Instant

end Rendezvous
