import Rendezvous.Instant

/-!
# The Gregorian calendar

Days are counted from the start of 1970. Years are taken to begin in March, so that the leap day
ends a year; 400 of them make an era of 146097 days, and within an era everything is a quotient
of natural numbers.
-/

namespace Rendezvous

/-- A date of the Gregorian calendar. The fields are as they were read, so the date may not exist;
`Date.valid` tells. -/
structure Date where
  year : Int
  month : Nat
  day : Nat
deriving DecidableEq

namespace Date

def isLeap (year : Int) : Bool := year % 4 = 0 && (year % 100 ≠ 0 || year % 400 = 0)

/-- How many days a month has; `month` counts from one. -/
def daysInMonth (year : Int) : Nat → Nat
  | 2 => if isLeap year then 29 else 28
  | 4 | 6 | 9 | 11 => 30
  | _ => 31

/-- The first and last year that dates may have. -/
def years : Int × Int := (-262143, 262142)

/-- Whether the date exists and lies within the years that dates may have. -/
def valid (d : Date) : Bool :=
  years.1 ≤ d.year && d.year ≤ years.2 && 1 ≤ d.month && d.month ≤ 12 && 1 ≤ d.day &&
    d.day ≤ daysInMonth d.year d.month

/-- Days of an era before its year `y`, which begins in March. -/
def daysBeforeYear (y : Nat) : Nat := 365 * y + y / 4 - y / 100

/-- Days of a year before its month `m`, where March is 0. -/
def daysBeforeMonth (m : Nat) : Nat := (153 * m + 2) / 5

/-- Days from the start of the eras to the start of 1970. -/
def epochShift : Int := 719468

/-- The day count of a date. A year begins in March here, so January and February count with the
year before. -/
def toDays (d : Date) : Int :=
  let y := if d.month ≤ 2 then d.year - 1 else d.year
  let era := y / 400
  let doe := daysBeforeYear (y - era * 400).toNat + daysBeforeMonth ((d.month + 9) % 12) + d.day - 1
  era * 146097 + doe - epochShift

/-- The date with the given day count. On dates that exist it undoes `toDays`, in any era. -/
def ofDays (n : Int) : Date :=
  let z := n + epochShift
  let era := z / 146097
  let doe := (z % 146097).toNat
  let yoe := (doe - doe / 1460 + doe / 36524 - doe / 146096) / 365
  let doy := doe - daysBeforeYear yoe
  let m := (5 * doy + 2) / 153
  let y : Int := era * 400 + yoe
  { year := if m < 10 then y else y + 1
    month := if m < 10 then m + 3 else m - 9
    day := doy - daysBeforeMonth m + 1 }

end Date

/-- A date and a time of day, which may be a leap second. -/
structure DateTime where
  date : Date
  hour : Nat
  minute : Nat
  second : Nat
  nanos : Nat
deriving DecidableEq

namespace DateTime

/-- The second count of the date and time as read on a clock `offset` seconds ahead of UTC. -/
def toSeconds (t : DateTime) (offset : Int) : Int :=
  t.date.toDays * 86400 + t.hour * 3600 + t.minute * 60 + t.second - offset

end DateTime

namespace Instant

def date (t : Instant) : Date := Date.ofDays (t.seconds / 86400)

/-- The date and time of an instant in UTC. A leap second shows as second 60 of its minute. -/
def dateTime (t : Instant) : DateTime :=
  let s := (t.seconds % 86400).toNat
  let leap := 1000000000 ≤ t.nanos
  { date := t.date
    hour := s / 3600
    minute := s / 60 % 60
    second := if leap then s % 60 + 1 else s % 60
    nanos := if leap then t.nanos - 1000000000 else t.nanos }

end Instant

end Rendezvous
