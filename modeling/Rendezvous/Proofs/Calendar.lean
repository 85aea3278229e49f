import Mathlib.Tactic.IntervalCases
import Rendezvous.Instant.Reader

/-!
# Dates and day counts

The date of a day is found by quotients alone. To see that it is the right one, a day of an era is
taken apart as the calendar does it (`EraDay`): into centuries, leap cycles of four years, years
that begin in March, and a day of the year. The quotients find these parts again, whatever they are;
so the date of a day has the count of that day (`toDays_ofDays`), and it exists (`valid_ofDays`).
With the time of day added, an instant is the one that its date and time name
(`ofDateTime?_dateTime`).
-/

namespace Rendezvous

/-- A day of an era, taken apart: its century, its cycle of four years in that, its year in that,
and its day in the year. All parts are counted from zero, and their bounds are fields. -/
structure EraDay where
  century : Nat
  cycle : Nat
  year : Nat
  day : Nat
  century_le : century ≤ 3
  cycle_le : cycle ≤ 24
  year_le : year ≤ 3
  day_le : day ≤ 365
  /-- A leap day ends a cycle. The last cycle of a century has none, unless the era ends with it. -/
  leap : day = 365 → year = 3 ∧ (cycle ≤ 23 ∨ century = 3)

namespace EraDay

variable (e : EraDay) (era : Int)

/-- Days of the era before this one. Different days have different counts, which the quotients of
`Date.ofDays` undo. -/
def count : Nat := 36524 * e.century + 1461 * e.cycle + 365 * e.year + e.day

/-- Years of the era before this day, in which leap days make no difference. -/
def years : Nat := 100 * e.century + 4 * e.cycle + e.year

/-- The month of the day, where March is 0, so that the leap day is the last day of the last
month. -/
def month : Nat := (5 * e.day + 2) / 153

def date : Date where
  year := if e.month < 10 then era * 400 + e.years else era * 400 + e.years + 1
  month := if e.month < 10 then e.month + 3 else e.month - 9
  day := e.day - Date.daysBeforeMonth e.month + 1

theorem exists_count {d : Nat} (h : d < 146097) : ∃ e : EraDay, e.count = d := by
  let c := min 3 (d / 36524)
  let q := (d - 36524 * c) / 1461
  let y := min 3 ((d - 36524 * c - 1461 * q) / 365)
  have hc : c ≤ 3 ∧ 36524 * c ≤ d ∧ d ≤ 36524 * c + 36524 ∧ (d = 36524 * c + 36524 → c = 3) := by
    omega
  have hq : q ≤ 24 ∧ 1461 * q ≤ d - 36524 * c ∧ d - 36524 * c < 1461 * q + 1461 := by omega
  have hy : y ≤ 3 ∧ 365 * y ≤ d - 36524 * c - 1461 * q
      ∧ d - 36524 * c - 1461 * q ≤ 365 * y + 365
      ∧ (d - 36524 * c - 1461 * q = 365 * y + 365 → y = 3) := by omega
  refine ⟨⟨c, q, y, d - 36524 * c - 1461 * q - 365 * y, hc.1, hq.1, hy.1, ?_, ?_⟩, ?_⟩
  · omega
  · omega
  · simp only [count]
    omega

theorem years_lt : e.years < 400 := by
  obtain ⟨c, q, y, s, hc, hq, hy, hs, hl⟩ := e
  simp only [years]
  omega

theorem daysBeforeYear_years :
    Date.daysBeforeYear e.years = 36524 * e.century + 1461 * e.cycle + 365 * e.year := by
  have hc := e.cycle_le
  have hy := e.year_le
  simp only [Date.daysBeforeYear, years]
  omega

/-- Without the leap days, and with the centuries' missing ones, all years have 365 days. The
quotients are read off the parts of the day; only the last day of an era goes beyond its
centuries. -/
theorem years_eq :
    (e.count - e.count / 1460 + e.count / 36524 - e.count / 146096) / 365 = e.years := by
  obtain ⟨c, q, y, s, hc, hq, hy, hs, hl⟩ := e
  simp only [count, years]
  have hcycles : (36524 * c + 1461 * q + 365 * y + s) / 1460
      = 25 * c + q + (24 * c + q + 365 * y + s) / 1460 := by omega
  have hcarry : (24 * c + q + 365 * y + s) / 1460 ≤ 1 := by omega
  have hcenturies : (36524 * c + 1461 * q + 365 * y + s) / 36524
      = c + (36524 * c + 1461 * q + 365 * y + s) / 146096 := by
    by_cases hlast : 36524 * c + 1461 * q + 365 * y + s = 146096
    · have hc' : c = 3 := by omega
      rw [hlast, hc']
    · have hrest : 1461 * q + 365 * y + s ≤ 36523 := by omega
      omega
  rw [hcycles, hcenturies]
  omega

/-! ## Months -/

theorem month_le : e.month ≤ 11 := by
  have hs := e.day_le
  simp only [month]
  omega

theorem daysBeforeMonth_le : Date.daysBeforeMonth e.month ≤ e.day := by
  simp only [Date.daysBeforeMonth, month]
  omega

theorem day_lt : e.day < Date.daysBeforeMonth (e.month + 1) := by
  simp only [Date.daysBeforeMonth, month]
  omega

/-- Every month but February has the same length in all years. -/
theorem daysInMonth_eq (year : Int) {m : Nat} (h : m ≤ 10) :
    Date.daysInMonth year (if m < 10 then m + 3 else m - 9)
      = Date.daysBeforeMonth (m + 1) - Date.daysBeforeMonth m := by
  interval_cases m <;> rfl

/-- The year after one that begins in March is a leap year if that one ends with a leap day, which
is why the leap day needs no other rule. -/
theorem isLeap_of_day_eq (h : e.day = 365) : Date.isLeap (era * 400 + e.years + 1) = true := by
  obtain ⟨hy, hq⟩ := e.leap h
  have hcycle := e.cycle_le
  have hcentury := e.century_le
  simp only [Date.isLeap, Bool.and_eq_true, Bool.or_eq_true, decide_eq_true_eq]
  simp only [years]
  omega

theorem day_le_daysInMonth :
    (e.date era).day ≤ Date.daysInMonth (e.date era).year (e.date era).month := by
  have hle := e.daysBeforeMonth_le
  have hlt := e.day_lt
  have hm := e.month_le
  rcases Nat.lt_or_ge 10 e.month with hm' | hm'
  · have hfeb : e.month = 11 := by omega
    have hs := e.day_le
    have hleap := e.isLeap_of_day_eq era
    simp only [date, hfeb, Date.daysBeforeMonth]
    change _ ≤ if Date.isLeap (era * 400 + e.years + 1) then 29 else 28
    split
    · omega
    · have hne : e.day ≠ 365 := fun h => ‹¬_› (hleap h)
      omega
  · simp only [date]
    rw [daysInMonth_eq _ hm']
    omega

theorem valid_date (hfirst : Date.years.1 ≤ (e.date era).year)
    (hlast : (e.date era).year ≤ Date.years.2) : (e.date era).valid = true := by
  have hmonth : 1 ≤ (e.date era).month ∧ (e.date era).month ≤ 12 := by
    have hm := e.month_le
    simp only [date]
    split <;> omega
  have hday : 1 ≤ (e.date era).day := Nat.le_add_left _ _
  simp only [Date.valid, Bool.and_eq_true, decide_eq_true_eq]
  exact ⟨⟨⟨⟨⟨hfirst, hlast⟩, hmonth.1⟩, hmonth.2⟩, hday⟩, e.day_le_daysInMonth era⟩

theorem toDays_date : (e.date era).toDays = era * 146097 + e.count - Date.epochShift := by
  have hm := e.month_le
  have hle := e.daysBeforeMonth_le
  have hy := e.years_lt
  have hyear : (if (e.date era).month ≤ 2 then (e.date era).year - 1 else (e.date era).year)
      = era * 400 + e.years := by
    simp only [date]
    split <;> split <;> omega
  have hera : (era * 400 + (e.years : Int)) / 400 = era := by omega
  have hrest : (era * 400 + (e.years : Int) - era * 400).toNat = e.years := by omega
  have hmonth : ((e.date era).month + 9) % 12 = e.month := by
    simp only [date]
    split <;> omega
  simp only [Date.toDays]
  rw [hyear, hera, hrest, hmonth, daysBeforeYear_years]
  simp only [date, count]
  omega

end EraDay

namespace Date

theorem ofDays_eq (n : Int) :
    ∃ era e, n + epochShift = era * 146097 + (e : EraDay).count ∧ ofDays n = e.date era := by
  have hlt : ((n + epochShift) % 146097).toNat < 146097 := by omega
  obtain ⟨e, he⟩ := EraDay.exists_count hlt
  refine ⟨(n + epochShift) / 146097, e, by omega, ?_⟩
  have hday : e.count - daysBeforeYear e.years = e.day := by
    rw [EraDay.daysBeforeYear_years]
    simp only [EraDay.count]
    omega
  simp only [ofDays, ← he, EraDay.years_eq, hday]
  rfl

theorem toDays_ofDays (n : Int) : (ofDays n).toDays = n := by
  obtain ⟨era, e, hn, he⟩ := ofDays_eq n
  rw [he, EraDay.toDays_date]
  omega

theorem daysInMonth_le (year : Int) (month : Nat) : daysInMonth year month ≤ 31 := by
  unfold daysInMonth
  split
  · split <;> decide
  all_goals decide

theorem valid_ofDays {n : Int} (hfirst : years.1 ≤ (ofDays n).year)
    (hlast : (ofDays n).year ≤ years.2) : (ofDays n).valid = true := by
  obtain ⟨era, e, -, he⟩ := ofDays_eq n
  rw [he] at hfirst hlast ⊢
  exact e.valid_date era hfirst hlast

end Date

/-! ## Times of day -/

namespace Instant

/-- A time that is no leap second, in a year that dates may have; the years 0 to 9999 are some of
these. -/
structure Ordinary (t : Instant) : Prop where
  nanos_lt : t.nanos < 1000000000
  first_le : Date.years.1 ≤ t.date.year
  le_last : t.date.year ≤ Date.years.2

variable {t : Instant}

theorem dateTime_eq (h : t.nanos < 1000000000) : t.dateTime =
    ⟨t.date, (t.seconds % 86400).toNat / 3600, (t.seconds % 86400).toNat / 60 % 60,
      (t.seconds % 86400).toNat % 60, t.nanos⟩ := by
  have hleap : ¬ 1000000000 ≤ t.nanos := Nat.not_le.mpr h
  simp only [dateTime, hleap, if_false]

theorem toSeconds_dateTime (h : t.nanos < 1000000000) : t.dateTime.toSeconds 0 = t.seconds := by
  rw [dateTime_eq h]
  simp only [DateTime.toSeconds, date, Date.toDays_ofDays]
  omega

/-- An ordinary time is the one that its date and its time of day name, which is the half of the
round trip that is not about texts. -/
theorem ofDateTime?_dateTime (h : t.Ordinary) : ofDateTime? t.dateTime 0 = some t := by
  have hseconds := toSeconds_dateTime h.nanos_lt
  have hvalid : t.date.valid = true := Date.valid_ofDays h.first_le h.le_last
  rw [dateTime_eq h.nanos_lt] at hseconds ⊢
  have hday : (t.seconds % 86400).toNat < 86400 := by omega
  have hhour : (t.seconds % 86400).toNat / 3600 ≤ 23 := by omega
  have hminute : (t.seconds % 86400).toNat / 60 % 60 ≤ 59 := by omega
  have hsecond : (t.seconds % 86400).toNat % 60 ≤ 60 ∧ (t.seconds % 86400).toNat % 60 ≠ 60 := by
    omega
  have hyear : Date.years.1 ≤ t.date.year ∧ t.date.year ≤ Date.years.2 := ⟨h.first_le, h.le_last⟩
  simp only [ofDateTime?, hvalid, hhour, hminute, hsecond, hseconds, t.nanos_lt, hyear,
    Bool.and_self, and_self, decide_true, if_true, if_false, dite_true]

end Instant

end Rendezvous
