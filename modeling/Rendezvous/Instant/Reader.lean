import Rendezvous.Instant.Calendar
import Rendezvous.Text.Blank

/-!
# Reading instants

A lenient form of RFC 3339. Blanks may stand in front of every number and separator, numbers may
be short, a signed year may have any number of digits, and the zone is `Z`, `UTC` or an offset
whose colon may be missing. The date must exist, and so must the time of day, where second 60 is
a leap second.
-/

namespace Rendezvous.Instant

abbrev Rest := List Char

def digitValue (c : Char) : Nat := c.toNat - '0'.toNat

def value (digits : List Char) : Nat := digits.foldl (fun n c => 10 * n + digitValue c) 0

/-- Takes between one and `most` digits. A digit behind those is left for the next reader, which may
refuse it. -/
def readNumber (most : Nat) (s : Rest) : Option (Nat × Rest) :=
  match (s.take most).takeWhile Char.isDigit with
  | [] => none
  | digits => some (value digits, s.drop digits.length)

/-- Takes a number of at most `most` digits, which blanks may precede. -/
def readField (most : Nat) (s : Rest) : Option (Nat × Rest) := readNumber most (Text.trimStart s)

/-- Takes the separator `mark`, which blanks may precede. -/
def readMark (mark : Char) (s : Rest) : Option Rest :=
  match Text.trimStart s with
  | c :: s => if c = mark then some s else none
  | [] => none

/-- Takes a year. Without a sign it has four digits at the most, with one it may have any number of
them. -/
def readYear (s : Rest) : Option (Int × Rest) :=
  match Text.trimStart s with
  | '-' :: s => (readNumber s.length s).map fun (y, s) => (-y, s)
  | '+' :: s => (readNumber s.length s).map fun (y, s) => ((y : Int), s)
  | s => (readNumber 4 s).map fun (y, s) => ((y : Int), s)

/-- Takes a point and digits, of which the first nine count and the others are passed over. A text
that goes on in another way has no fraction. -/
def readFraction : Rest → Option (Nat × Rest)
  | '.' :: s => match (s.take 9).takeWhile Char.isDigit with
    | [] => none
    | digits => some (value digits * Nat.pow 10 (9 - digits.length), s.dropWhile Char.isDigit)
  | s => some (0, s)

def readTwo : Rest → Option (Nat × Rest)
  | a :: b :: s => if a.isDigit && b.isDigit then some (value [a, b], s) else none
  | _ => none

/-- Takes the hours and minutes of an offset behind its sign. The colon between them may be missing,
and blanks may stand in its place. -/
def readOffset (sign : Int) (s : Rest) : Option (Int × Rest) := do
  let (hours, s) ← readTwo s
  let (minutes, s) ← readTwo (s.dropWhile fun c => c = ':' || Text.isBlank c)
  if hours ≤ 23 && minutes ≤ 59 then some (sign * (hours * 3600 + minutes * 60), s) else none

/-- Takes a zone and gives the seconds it is ahead of UTC. A minus sign may be the one of ASCII or
that of Unicode. -/
def readZone (s : Rest) : Option (Int × Rest) :=
  if (s.take 3).map Char.toLower = ['u', 't', 'c'] then some (0, s.drop 3)
  else match s with
    | 'Z' :: s | 'z' :: s => some (0, s)
    | '+' :: s => readOffset 1 s
    | '-' :: s | '−' :: s => readOffset (-1) s
    | _ => none

/-- Takes a year, a month and a day, with hyphens between them. Whether there is such a date is
checked at the end. -/
def readDate (s : Rest) : Option (Date × Rest) := do
  let (year, s) ← readYear s
  let s ← readMark '-' s
  let (month, s) ← readField 2 s
  let s ← readMark '-' s
  let (day, s) ← readField 2 s
  return (⟨year, month, day⟩, s)

/-- Takes a time of day, with its fraction if there is one. -/
def readTime (date : Date) (s : Rest) : Option (DateTime × Rest) := do
  let (hour, s) ← readField 2 s
  let s ← readMark ':' s
  let (minute, s) ← readField 2 s
  let s ← readMark ':' s
  let (second, s) ← readField 2 s
  let (nanos, s) ← readFraction s
  return (⟨date, hour, minute, second, nanos⟩, s)

/-- The instant of a date and time read on a clock `offset` seconds ahead of UTC, if both exist.
Second 60 is kept as a leap second of the second before it. -/
def ofDateTime? (t : DateTime) (offset : Int) : Option Instant :=
  if t.date.valid && t.hour ≤ 23 && t.minute ≤ 59 && t.second ≤ 60 then
    let leap := t.second = 60
    let seconds := if leap then t.toSeconds offset - 1 else t.toSeconds offset
    let nanos := if leap then t.nanos + 1000000000 else t.nanos
    if h : nanos < 2000000000 then
      let instant : Instant := ⟨seconds, nanos, h⟩
      if Date.years.1 ≤ instant.date.year ∧ instant.date.year ≤ Date.years.2 then some instant
      else none
    else none
  else none

/-- The instant that the whole text writes: a date, a letter or a blank, a time and a zone. Blanks
behind it are passed over. -/
def read? (text : String) : Option Instant := do
  let (date, s) ← readDate text.toList
  let s ← match s with
    | 'T' :: s | 't' :: s | ' ' :: s => some s
    | _ => none
  let (time, s) ← readTime date s
  let (offset, s) ← readZone (Text.trimStart s)
  if s.all Text.isBlank then ofDateTime? time offset else none

end Rendezvous.Instant
