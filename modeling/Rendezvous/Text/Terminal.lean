/-!
# Text for a terminal

A terminal does not show the bell, the backspace, the form feed, the escape and all controls from
the delete character on, but acts on them. `inert` writes each of them as its code, so that no text
can steer the terminal that it is shown on; every other character, line ends and tabs among them,
stands as it is.
-/

namespace Rendezvous.Text

def steers (c : Char) : Bool :=
  [0x07, 0x08, 0x0C, 0x1B].contains c.toNat || 0x7F ≤ c.toNat && c.toNat ≤ 0x9F

/-- The code of `c`, which is below 0x100, in two digits. -/
def hexPair (c : Char) : List Char := [Nat.digitChar (c.toNat / 16), Nat.digitChar (c.toNat % 16)]

/-- The characters that stand for `c`: an ASCII code is marked by an `x`, others by a `u`. -/
def disarmed (c : Char) : List Char :=
  if !steers c then [c]
  else if c.toNat < 0x80 then '\\' :: 'x' :: hexPair c
  else '\\' :: 'u' :: '\x7b' :: hexPair c ++ ['\x7d']

/-- The text with each character that steers written as its code. A text that has none stays as it
is. -/
def inert (s : String) : String := String.ofList (s.toList.flatMap disarmed)

end Rendezvous.Text
