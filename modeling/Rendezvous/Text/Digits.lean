/-!
# Decimal digits

Numbers padded with zeros, and the text of a time span.
-/

namespace Rendezvous.Text

/-- The digits of `n`, with zeros in front to make them at least `width`. -/
def padded (width n : Nat) : String :=
  let digits := toString n
  "".pushn '0' (width - digits.length) ++ digits

/-- A span of milliseconds: whole and fractional seconds from one second on, else milliseconds, and
nothing at all as `0ns`. -/
def span (ms : Nat) : String :=
  if ms = 0 then "0ns"
  else if ms < 1000 then s!"{ms}ms"
  else
    let places := (padded 3 (ms % 1000)).toList.reverse.dropWhile (· = '0')
    let fraction := if places = [] then "" else "." ++ String.ofList places.reverse
    s!"{ms / 1000}{fraction}s"

end Rendezvous.Text
