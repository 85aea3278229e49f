/-!
# Blank characters

The characters of Unicode's `White_Space` property, and what it means to trim a text. `fold` is
the form in which the names of statuses and settings are compared: trimmed, with the ASCII
letters in lower case and every other character as it stands.
-/

namespace Rendezvous.Text

/-- First and last code point of each run of `White_Space`. -/
def blankRuns : List (Nat × Nat) :=
  [(0x9, 0xD), (0x20, 0x20), (0x85, 0x85), (0xA0, 0xA0), (0x1680, 0x1680), (0x2000, 0x200A),
    (0x2028, 0x2029), (0x202F, 0x202F), (0x205F, 0x205F), (0x3000, 0x3000)]

def isBlank (c : Char) : Bool := blankRuns.any fun r => r.1 ≤ c.toNat && c.toNat ≤ r.2

def trimStart (s : List Char) : List Char := s.dropWhile isBlank

def trimEnd (s : List Char) : List Char := (s.reverse.dropWhile isBlank).reverse

def trim (s : List Char) : List Char := trimEnd (trimStart s)

/-- Whether every character of the text is blank. That holds of the empty text, too. -/
def blank (s : String) : Bool := s.toList.all isBlank

/-- The text trimmed and in lower case, which only the letters of ASCII have here. Two texts that
name the same thing fold to the same. -/
def fold (s : String) : String := String.ofList ((trim s.toList).map Char.toLower)

end Rendezvous.Text
