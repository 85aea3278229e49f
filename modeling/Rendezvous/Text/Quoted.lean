import Rendezvous.Text.Hidden

/-!
# Quoted text

How a text is shown between quotes. The quote, the backslash and the characters that end a line,
start a column or end a text have escapes of one letter; other hidden characters are shown as their
code point in hexadecimal digits.
-/

namespace Rendezvous.Text

/-- The letter that stands for `c` behind a backslash. -/
def escapeLetter? : Char → Option Char
  | '"' => some '"'
  | '\\' => some '\\'
  | '\t' => some 't'
  | '\n' => some 'n'
  | '\r' => some 'r'
  | '\x00' => some '0'
  | _ => none

def codePoint (c : Char) : List Char :=
  "\\u\x7b".toList ++ Nat.toDigits 16 c.toNat ++ ['\x7d']

def shown (c : Char) : List Char :=
  match escapeLetter? c with
  | some letter => ['\\', letter]
  | none => if isHidden c then codePoint c else [c]

/-- A text between quotes. Nothing of it is hidden, and no text can end the quotes before its own
end. -/
def quote (s : String) : String := "\"" ++ String.ofList (s.toList.flatMap shown) ++ "\""

def quoteOption : Option String → String
  | none => "None"
  | some s => s!"Some({quote s})"

end Rendezvous.Text
