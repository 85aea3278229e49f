import Rendezvous.Instant.Calendar
import Rendezvous.Text.Digits

/-!
# Writing instants

Instants are written as by RFC 3339 in UTC. The fraction of the second is left out when it is zero
and else has the least of 3, 6 or 9 digits that is exact. Years of other than four digits carry a
sign.
-/

namespace Rendezvous.Instant

/-- A year as it is written: with four digits at the least, and with a sign unless it has exactly
four. -/
def yearText (y : Int) : String :=
  if 0 ≤ y ∧ y ≤ 9999 then Text.padded 4 y.toNat
  else (if y < 0 then "-" else "+") ++ Text.padded 4 y.natAbs

/-- The fraction of a second with its point, in three, six or nine digits as it takes to be exact. A
whole second has none. -/
def fractionText (nanos : Nat) : String :=
  if nanos = 0 then ""
  else if nanos % 1000000 = 0 then "." ++ Text.padded 3 (nanos / 1000000)
  else if nanos % 1000 = 0 then "." ++ Text.padded 6 (nanos / 1000)
  else "." ++ Text.padded 9 nanos

/-- The text up to the zone. -/
def localText (t : Instant) : String :=
  let d := t.dateTime
  let two := Text.padded 2
  s!"{yearText d.date.year}-{two d.date.month}-{two d.date.day}T" ++
    s!"{two d.hour}:{two d.minute}:{two d.second}{fractionText d.nanos}"

/-- The text with the zone written as `Z`, as records are encoded. -/
def text (t : Instant) : String := t.localText ++ "Z"

/-- The text with the zone written as an offset, as steps capture it. -/
def offsetText (t : Instant) : String := t.localText ++ "+00:00"

end Rendezvous.Instant
