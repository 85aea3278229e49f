/-!
# Binary floating point with 64 bits

Payloads may hold numbers that are no 64-bit integers. They are carried, never computed with, as
the double they are read to: a sign and `mantissa * 2 ^ exponent`. All arithmetic here is on
natural numbers; `nearest` rounds a quotient to the nearest double, ties to the even mantissa.
-/

namespace Rendezvous

/-- A double, as it stands for `mantissa * 2 ^ exponent` with a sign of its own, so that minus zero
is apart from zero. There are no infinities: a number that is too large is a fault of its text. -/
structure Binary64 where
  negative : Bool
  mantissa : Nat
  exponent : Int
deriving DecidableEq

namespace Binary64

/-- The exponent of the smallest double above zero, and of all others below the normal range. -/
def leastExponent : Int := -1074

/-- A mantissa stays below `2 ^ 53`. -/
def mantissaBound : Nat := 1 <<< 53

/-- The quotient `num / (den * 2 ^ e)`, rounded to a whole number. Of two whole numbers that are
equally near, the even one is taken. -/
def roundScaled (num den : Nat) (e : Int) : Nat :=
  let n := num <<< (-e).toNat
  let d := den <<< e.toNat
  let q := n / d
  let r := 2 * (n % d)
  if r < d then q else if d < r then q + 1 else q + q % 2

/-- The nearest double to `num / den` as a mantissa below `2 ^ 53` and an exponent; `none` when it
is too large. -/
def nearest (num den : Nat) : Option (Nat × Int) :=
  if num = 0 then some (0, 0) else
  let guess : Int := num.log2 - den.log2 - 53
  let fits := (num <<< (-guess).toNat) / (den <<< guess.toNat) < mantissaBound
  let e := if fits then guess else guess + 1
  let e := max e leastExponent
  let q := roundScaled num den e
  let (m, e) := if q = mantissaBound then (mantissaBound / 2, e + 1) else (q, e)
  if 971 < e then none else some (m, e)

/-- The value of `m * 2 ^ e` as a quotient. -/
def ratio (v : Nat × Int) : Nat × Nat := (v.1 <<< v.2.toNat, 1 <<< (-v.2).toNat)

/-- The double nearest to a product of two. -/
def product (a b : Nat × Int) : Option (Nat × Int) :=
  let (n, d) := ratio (a.1 * b.1, a.2 + b.2)
  nearest n d

/-- The double nearest to a quotient of two; `b` is not zero. -/
def quotient (a b : Nat × Int) : Option (Nat × Int) :=
  let (an, ad) := ratio a
  let (bn, bd) := ratio b
  nearest (an * bd) (ad * bn)

/-- The double nearest to `10 ^ n`. -/
def powerOfTen (n : Nat) : Option (Nat × Int) := nearest (Nat.pow 10 n) 1

/-- Divides by `10 ^ n`, at most 308 places at a time, since a greater power of ten is no double.
Each division rounds, so the result may differ from the nearest double. -/
def shrink : Nat → (Nat × Int) → Nat → Option (Nat × Int)
  | 0, v, _ => some v
  | fuel + 1, v, n =>
    if v.1 = 0 then some v
    else if n ≤ 308 then powerOfTen n >>= quotient v
    else powerOfTen 308 >>= quotient v >>= fun w => shrink fuel w (n - 308)

/-- The double for `digits * 10 ^ exponent`: the digits are rounded first, then scaled by a rounded
power of ten. -/
def ofDecimal (negative : Bool) (digits : Nat) (exponent : Int) : Option Binary64 := do
  let v ← nearest digits 1
  let w ← if v.1 = 0 then some v
    else if 308 < exponent then none
    else if 0 ≤ exponent then powerOfTen exponent.toNat >>= product v
    else shrink (exponent.natAbs / 308 + 1) v exponent.natAbs
  return ⟨negative, w.1, w.2⟩

/-- The exact decimal text of the value. It has a point or an exponent, so it reads back as a double
and never as a whole number. -/
def text (v : Binary64) : String :=
  let sign := if v.negative then "-" else ""
  if 0 ≤ v.exponent then s!"{sign}{v.mantissa <<< v.exponent.toNat}.0"
  else s!"{sign}{v.mantissa * Nat.pow 5 v.exponent.natAbs}e{v.exponent}"

end Binary64

end Rendezvous
