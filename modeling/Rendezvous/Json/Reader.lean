import Rendezvous.Json
import Rendezvous.Text.Count

/-!
# Reading JSON

A reader over the characters of a text. Each reading step takes at least one character, so the
length of the text bounds the depth of the recursion.

A number is whole when it is written without point and exponent, fits 64 bits (signed below zero,
unsigned above) and is not minus zero; every other number is read to a double. Its digits count
up to the last that keeps them within 64 bits; later digits before the point scale the number and
later digits behind it are dropped.
-/

namespace Rendezvous.Json

/-- The text without the blanks in front of it that JSON allows between values. -/
def skipSpace : List Char → List Char :=
  List.dropWhile fun c => c = ' ' || c = '\n' || c = '\t' || c = '\r'

/-! ## Numbers -/

/-- Digits taken so far: their value, and by how many places of ten the number must be scaled for
those that were left out. -/
structure Digits where
  value : Nat
  scale : Int
  /-- No further digit counts. -/
  full : Bool

def digit (c : Char) : Nat := c.toNat - '0'.toNat

/-- Takes in a digit before the point. One that no longer fits into 64 bits makes the number ten
times as large and is not kept. -/
def Digits.beforePoint (d : Digits) (c : Char) : Digits :=
  if !d.full && 10 * d.value + digit c ≤ Text.greatestWord then
    { d with value := 10 * d.value + digit c }
  else { d with scale := d.scale + 1, full := true }

/-- Takes in a digit behind the point. One that no longer fits is dropped. -/
def Digits.behindPoint (d : Digits) (c : Char) : Digits :=
  if !d.full && 10 * d.value + digit c ≤ Text.greatestWord then
    { d with value := 10 * d.value + digit c, scale := d.scale - 1 }
  else { d with full := true }

def readExponent (s : List Char) : Option (Int × List Char) :=
  let (sign, s) := match s with
    | '-' :: s => ((-1 : Int), s)
    | '+' :: s => (1, s)
    | s => (1, s)
  match s.takeWhile Char.isDigit with
  | [] => none
  | ds => some (sign * ds.foldl (fun n c => 10 * n + digit c) 0, s.dropWhile Char.isDigit)

/-- Reads a number. It is whole if it has no point and no exponent, fits its range and is not minus
zero. A leading zero must stand alone before the point. -/
def readNumber (s : List Char) : Option (Json × List Char) :=
  let (negative, s) := match s with
    | '-' :: s => (true, s)
    | s => (false, s)
  let whole := s.takeWhile Char.isDigit
  let rest := s.dropWhile Char.isDigit
  if whole = [] || (whole.head? = some '0' && whole.length ≠ 1) then none else
  let d := whole.foldl Digits.beforePoint ⟨0, 0, false⟩
  let float (d : Digits) (e : Int) (rest : List Char) :=
    (Binary64.ofDecimal negative d.value (d.scale + e)).map fun v => (Json.float v, rest)
  let scaled (d : Digits) : List Char → Option (Json × List Char)
    | 'e' :: rest | 'E' :: rest => readExponent rest >>= fun (e, rest) => float d e rest
    | rest => float d 0 rest
  match rest with
  | '.' :: rest => match rest.takeWhile Char.isDigit with
    | [] => none
    | places => scaled (places.foldl Digits.behindPoint { d with full := false })
        (rest.dropWhile Char.isDigit)
  | 'e' :: _ | 'E' :: _ => scaled d rest
  | rest =>
    if d.full then float d 0 rest
    else if negative then
      if d.value = 0 || 0x8000000000000000 < d.value then float d 0 rest
      else some (.int (-d.value), rest)
    else some (.int d.value, rest)

/-! ## Strings -/

def hexValue? (c : Char) : Option Nat :=
  if c.isDigit then some (c.toNat - '0'.toNat)
  else if 'a' ≤ c ∧ c ≤ 'f' then some (c.toNat - 'a'.toNat + 10)
  else if 'A' ≤ c ∧ c ≤ 'F' then some (c.toNat - 'A'.toNat + 10)
  else none

def readUnit : List Char → Option (Nat × List Char)
  | a :: b :: c :: d :: s => do
    let a ← hexValue? a
    let b ← hexValue? b
    let c ← hexValue? c
    let d ← hexValue? d
    return (((a * 16 + b) * 16 + c) * 16 + d, s)
  | _ => none

/-- Reads on behind a backslash and the letter u. Two units in a row may stand for one character
beyond the sixteen-bit range. -/
def readEscapedUnit (s : List Char) : Option (Char × List Char) := do
  let (hi, s) ← readUnit s
  if 0xD800 ≤ hi ∧ hi < 0xDC00 then
    match s with
    | '\\' :: 'u' :: s =>
      let (lo, s) ← readUnit s
      if 0xDC00 ≤ lo ∧ lo < 0xE000 then
        some (Char.ofNat (0x10000 + (hi - 0xD800) * 0x400 + (lo - 0xDC00)), s)
      else none
    | _ => none
  else if 0xDC00 ≤ hi ∧ hi < 0xE000 then none
  else some (Char.ofNat hi, s)

def simpleEscape? : Char → Option Char
  | '"' => some '"'
  | '\\' => some '\\'
  | '/' => some '/'
  | 'b' => some '\x08'
  | 'f' => some '\x0c'
  | 'n' => some '\n'
  | 'r' => some '\r'
  | 't' => some '\t'
  | _ => none

/-- Reads on inside a string up to its closing quote; `done` holds the characters before, the last
one first. Control characters must be escaped. -/
def readChars : Nat → List Char → List Char → Option (String × List Char)
  | 0, _, _ => none
  | _ + 1, done, '"' :: s => some (String.ofList done.reverse, s)
  | fuel + 1, done, '\\' :: 'u' :: s => do
    let (c, s) ← readEscapedUnit s
    readChars fuel (c :: done) s
  | fuel + 1, done, '\\' :: e :: s => do
    let c ← simpleEscape? e
    readChars fuel (c :: done) s
  | fuel + 1, done, c :: s =>
    if c.toNat < 0x20 || c = '\\' then none else readChars fuel (c :: done) s
  | _ + 1, _, [] => none

def readString (fuel : Nat) (s : List Char) : Option (String × List Char) := readChars fuel [] s

/-! ## Values -/

def readWord (word : String) (v : Json) (s : List Char) : Option (Json × List Char) :=
  if word.toList.isPrefixOf s then some (v, s.drop word.length) else none

mutual

/-- Reads a value, which blanks may precede. The fuel bounds how deep values are nested and how many
characters strings have. -/
def readValue : Nat → List Char → Option (Json × List Char)
  | 0, _ => none
  | fuel + 1, s => match skipSpace s with
    | 'n' :: s => readWord "null" .null ('n' :: s)
    | 't' :: s => readWord "true" (.bool true) ('t' :: s)
    | 'f' :: s => readWord "false" (.bool false) ('f' :: s)
    | '"' :: s => (readString fuel s).map fun (t, s) => (.str t, s)
    | '[' :: s => match skipSpace s with
      | ']' :: s => some (.arr [], s)
      | s => (readItems fuel s).map fun (items, s) => (.arr items, s)
    | '\x7b' :: s => match skipSpace s with
      | '\x7d' :: s => some (.obj [], s)
      | s => (readFields fuel [] s).map fun (fields, s) => (.obj fields, s)
    | s => readNumber s

/-- Reads on in front of an item, to the end of the array. A comma must be followed by another
item. -/
def readItems : Nat → List Char → Option (List Json × List Char)
  | 0, _ => none
  | fuel + 1, s => do
    let (v, s) ← readValue fuel s
    match skipSpace s with
    | ',' :: s => do
      let (items, s) ← readItems fuel s
      return (v :: items, s)
    | ']' :: s => some ([v], s)
    | _ => none

/-- Reads on in front of a field, after those in `done`, to the end of the object. A name that comes
again overwrites the earlier value. -/
def readFields : Nat → List (String × Json) → List Char → Option (List (String × Json) × List Char)
  | 0, _, _ => none
  | fuel + 1, done, s => match skipSpace s with
    | '"' :: s => do
      let (k, s) ← readString fuel s
      match skipSpace s with
      | ':' :: s => do
        let (v, s) ← readValue fuel s
        let done := Entries.insert k v done
        match skipSpace s with
        | ',' :: s => readFields fuel done s
        | '\x7d' :: s => some (done, s)
        | _ => none
      | _ => none
    | _ => none

end

/-- The value that the whole text writes, with blanks around it allowed. The fuel is more than the
characters there are, so it never runs out. -/
def parse? (text : String) : Option Json :=
  match readValue (2 * text.length + 2) text.toList with
  | some (v, rest) => if skipSpace rest = [] then some v else none
  | none => none

end Rendezvous.Json
