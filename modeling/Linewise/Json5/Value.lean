import Linewise.Json5.Text

/-!
# JSON5

JSON5 is JSON with comments, bare keys, strings between single quotes, commas
after last parts, and more forms of numbers. Whole numbers that do not fit into a
signed word of 64 bits are floating-point numbers.
-/

namespace Linewise.Json5

/-- The value of a whole number, or of its negative. -/
def whole (negative : Bool) (n : Nat) : Datum :=
  let value : Int := if negative then -n else n
  if fitsWord value then .integer value else .number (.ofDecimal negative n 0)

/-- The value of a number without its sign: in hexadecimal, by name, or in decimal, where the point
may also stand before or after all digits. -/
def magnitude? (negative : Bool) (chars : List Char) : Option Datum :=
  match chars with
  | '0' :: 'x' :: digits | '0' :: 'X' :: digits => (numeral? 16 digits).map (whole negative)
  | chars =>
    let first := chars.takeWhile Char.isDigit
    if chars = "Infinity".toList then some (.number (.infinite negative))
    else if chars = "NaN".toList then some (.number .nan)
    else if !first.isEmpty && !Json.isWhole first then none
    else if first.length = chars.length then (numeral? 10 chars).map (whole negative)
    else (Binary64.ofUnsigned? negative chars).map .number

/-- Whether `c` may stand in a number or a word. -/
def isWordChar (c : Char) : Bool := c.isAlphanum || c = '+' || c = '-' || c = '.'

/-- Reads a value without parts, and what follows. -/
def readScalar (chars : List Char) : Option (Datum × List Char) :=
  match readQuoted chars with
  | some (text, rest) => some (.text (String.ofList text), rest)
  | none =>
    let word := chars.takeWhile isWordChar
    let value := match String.ofList word with
      | "null" => some Datum.nothing
      | "true" => some (.boolean true)
      | "false" => some (.boolean false)
      | _ =>
        let (negative, digits) := readSign word
        magnitude? negative digits
    value.map (·, chars.dropWhile isWordChar)

mutual

/-- Reads a value, and what follows. Each array, object and part uses up one unit of `fuel`, so that
the number of characters is enough. -/
def readValue (fuel : Nat) (chars : List Char) : Option (Datum × List Char) :=
  match fuel, chars with
  | fuel + 1, '[' :: rest =>
    (readItems fuel (skip rest)).map fun (items, rest) => (.list items, rest)
  | fuel + 1, '\x7b' :: rest =>
    (readFields fuel (skip rest)).map fun (fields, rest) => (.table fields, rest)
  | _, chars => readScalar chars

/-- Reads items up to the closing bracket, and what follows. -/
def readItems (fuel : Nat) (chars : List Char) : Option (List Datum × List Char) :=
  match fuel, chars with
  | _, ']' :: rest => some ([], rest)
  | 0, _ => none
  | fuel + 1, chars => do
    let (item, rest) ← readValue fuel chars
    match skip rest with
    | ']' :: rest => return ([item], rest)
    | ',' :: rest =>
      let (items, rest) ← readItems fuel (skip rest)
      return (item :: items, rest)
    | _ => none

/-- Reads fields up to the closing brace, and what follows. -/
def readFields (fuel : Nat) (chars : List Char) : Option (List (String × Datum) × List Char) :=
  match fuel, chars with
  | _, '\x7d' :: rest => some ([], rest)
  | 0, _ => none
  | fuel + 1, chars => do
    let (key, rest) ← readKey chars
    let (value, rest) ← readValue fuel (skip (← Read.after? ':' (skip rest)))
    match skip rest with
    | '\x7d' :: rest => return ([(key, value)], rest)
    | ',' :: rest =>
      let (fields, rest) ← readFields fuel (skip rest)
      return ((key, value) :: fields, rest)
    | _ => none

end

/-- Reads a text. -/
def parse? (text : String) : Option Datum := do
  let (value, rest) ← readValue (text.length + 1) (skip text.toList)
  if (skip rest).isEmpty then some value else none

end Linewise.Json5
