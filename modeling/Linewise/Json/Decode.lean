import Linewise.Json.Number

/-!
# Reading JSON

A JSON text holds one value, with white space around its parts. Arrays and
objects stand in each other at most 127 deep.
-/

namespace Linewise.Json

/-- How deep arrays and objects may stand in each other. -/
def maxDepth : Nat := 127

/-- Whether `c` is white space between the parts of a text. -/
def isSpace (c : Char) : Bool := c = ' ' || c = '\t' || c = '\n' || c = '\r'

/-- What follows white space. -/
def skipSpace (chars : List Char) : List Char := chars.dropWhile isSpace

/-- The character that an escape of one letter stands for. -/
def unescape? : Char → Option Char
  | '"' => some '"'
  | '\\' => some '\\'
  | '/' => some '/'
  | 'b' => some '\x08'
  | 'f' => some '\x0c'
  | 'n' => some '\n'
  | 'r' => some '\r'
  | 't' => some '\t'
  | _ => none

/-- Reads a 16-bit unit of four hexadecimal digits, and what follows. -/
def readUnit : List Char → Option (Nat × List Char)
  | a :: b :: c :: d :: rest => (numeral? 16 [a, b, c, d]).map (·, rest)
  | _ => none

/-- Reads the character that a 16-bit unit begins, after the mark of the unit, and what follows. A
unit of the upper half of a pair must be followed by one of the lower half. -/
def readUnits (chars : List Char) : Option (Char × List Char) := do
  let (unit, rest) ← readUnit chars
  if 0xD800 ≤ unit ∧ unit < 0xDC00 then
    match rest with
    | '\\' :: 'u' :: rest => do
      let (low, rest) ← readUnit rest
      if 0xDC00 ≤ low ∧ low < 0xE000 then
        return (Char.ofNat (0x10000 + (unit - 0xD800) * 0x400 + (low - 0xDC00)), rest)
      else none
    | _ => none
  else if unit.isValidChar then return (Char.ofNat unit, rest)
  else none

/-- Reads an escape after its backslash, and what follows. -/
def readEscape : List Char → Option (Char × List Char)
  | 'u' :: rest => readUnits rest
  | c :: rest => (unescape? c).map (·, rest)
  | [] => none

/-- Reads a string up to its closing quote, and what follows. Each character uses up one unit of
`fuel`. -/
def readString (fuel : Nat) (chars : List Char) : Option (List Char × List Char) :=
  match fuel, chars with
  | _, '"' :: rest => some ([], rest)
  | fuel + 1, '\\' :: rest => do
    let (char, rest) ← readEscape rest
    let (text, rest) ← readString fuel rest
    return (char :: text, rest)
  | fuel + 1, c :: rest =>
    if c.toNat < 32 then none
    else (readString fuel rest).map fun (text, rest) => (c :: text, rest)
  | _, _ => none

/-- The word that stands for a value, and what follows it. -/
def readWord (chars : List Char) : Option (Datum × List Char) :=
  let rest := chars.dropWhile Char.isAlpha
  match String.ofList (chars.takeWhile Char.isAlpha) with
  | "null" => some (.nothing, rest)
  | "true" => some (.boolean true, rest)
  | "false" => some (.boolean false, rest)
  | _ => none

/-- Reads the name of a field with the colon after it, and what follows. -/
def readName (chars : List Char) : Option (String × List Char) :=
  match chars with
  | '"' :: rest => do
    let (name, rest) ← readString rest.length rest
    match skipSpace rest with
    | ':' :: rest => return (String.ofList name, skipSpace rest)
    | _ => none
  | _ => none

mutual

/-- Reads a value, and what follows. Arrays and objects stand in each other at most `depth` deep.
Each of them and each part of them uses up one unit of `fuel`, so that the number of characters is
enough. -/
def readValue (fuel depth : Nat) (chars : List Char) : Option (Datum × List Char) :=
  match fuel, depth, chars with
  | fuel + 1, depth + 1, '[' :: rest => match skipSpace rest with
    | ']' :: rest => some (.list [], rest)
    | rest => (readItems fuel depth rest).map fun (items, rest) => (.list items, rest)
  | fuel + 1, depth + 1, '\x7b' :: rest => match skipSpace rest with
    | '\x7d' :: rest => some (.table [], rest)
    | rest => (readFields fuel depth rest).map fun (fields, rest) => (.table fields, rest)
  | _, _, '"' :: rest =>
    (readString rest.length rest).map fun (text, rest) => (.text (String.ofList text), rest)
  | _, _, chars => (readNumber chars).or (readWord chars)

/-- Reads at least one item, up to the closing bracket, and what follows. -/
def readItems (fuel depth : Nat) (chars : List Char) : Option (List Datum × List Char) :=
  match fuel with
  | 0 => none
  | fuel + 1 => do
    let (item, rest) ← readValue fuel depth chars
    match skipSpace rest with
    | ']' :: rest => return ([item], rest)
    | ',' :: rest =>
      let (items, rest) ← readItems fuel depth (skipSpace rest)
      return (item :: items, rest)
    | _ => none

/-- Reads at least one field, up to the closing brace, and what follows. -/
def readFields (fuel depth : Nat) (chars : List Char) :
    Option (List (String × Datum) × List Char) :=
  match fuel with
  | 0 => none
  | fuel + 1 => do
    let (name, rest) ← readName chars
    let (value, rest) ← readValue fuel depth rest
    match skipSpace rest with
    | '\x7d' :: rest => return ([(name, value)], rest)
    | ',' :: rest =>
      let (fields, rest) ← readFields fuel depth (skipSpace rest)
      return ((name, value) :: fields, rest)
    | _ => none

end

/-- Reads a text. -/
def parse? (text : String) : Option Datum := do
  let chars := skipSpace text.toList
  let (value, rest) ← readValue chars.length maxDepth chars
  if (skipSpace rest).isEmpty then some value else none

end Linewise.Json
