import Rendezvous.Text.Blank

/-!
# Unsigned whole numbers

How a count is read from text: an optional plus sign and ASCII digits, with a greatest value.
Characters are taken from the left, so of two faults the one met first is reported.
-/

namespace Rendezvous.Text

/-- Why a text is no count. Of a character that is no digit and a number that grows too large, the
one met first from the left is reported. -/
inductive CountError
  | empty
  | notDigit
  | tooLarge
deriving DecidableEq

def CountError.message : CountError → String
  | .empty => "cannot parse integer from empty string"
  | .notDigit => "invalid digit found in string"
  | .tooLarge => "number too large to fit in target type"

def digit? (c : Char) : Option Nat := if c.isDigit then some (c.toNat - '0'.toNat) else none

/-- Reads on from `n`, the value of the digits before. It stops at the first character that is no
digit or makes the number too large. -/
def readDigits (greatest : Nat) : Nat → List Char → Except CountError Nat
  | n, [] => .ok n
  | n, c :: s => match digit? c with
    | none => .error .notDigit
    | some d => if 10 * n + d ≤ greatest then readDigits greatest (10 * n + d) s
        else .error .tooLarge

/-- Reads a count of at most `greatest`. A plus sign alone is a character that is no digit, while a
text with nothing in it has a fault of its own. -/
def readCount (greatest : Nat) : List Char → Except CountError Nat
  | [] => .error .empty
  | ['+'] => .error .notDigit
  | '+' :: s => readDigits greatest 0 s
  | s => readDigits greatest 0 s

/-- The greatest value of 64 bits. -/
def greatestWord : Nat := 0xFFFFFFFFFFFFFFFF

end Rendezvous.Text
