import Linewise.Settings.Value
import Linewise.Text.Read

/-!
# Values in TOML that are not quoted

Such a value is `true` or `false`, an integer of 64 bits, a number with a point
or an exponent, or a date, a time or both. Single underscores may stand between
digits. A date or a time is kept as its text in a fixed form.
-/

namespace Linewise.Toml

/-- Whether `c` may stand in a value that is not quoted. -/
def isBareChar (c : Char) : Bool :=
  c.isAlphanum || c = '_' || c = '-' || c = '+' || c = '.' || c = ':'

/-- The number that digits write in the given base, where single underscores may stand between
digits. -/
def grouped? (base : Nat) (digits : List Char) : Option Nat :=
  let groups := digits.splitOn '_'
  if groups.any List.isEmpty then none else numeral? base groups.flatten

/-- The number of decimal digits without needless leading zeros. -/
def decimal? : List Char → Option Nat
  | ['0'] => some 0
  | '0' :: _ => none
  | digits => grouped? 10 digits

/-- The integer that the characters write, in decimal with an optional sign, or without a sign in
one of the bases 16, 8 and 2. -/
def integer? (chars : List Char) : Option Int :=
  let number : Option Int := match chars with
    | '0' :: 'x' :: digits => (grouped? 16 digits).map Int.ofNat
    | '0' :: 'o' :: digits => (grouped? 8 digits).map Int.ofNat
    | '0' :: 'b' :: digits => (grouped? 2 digits).map Int.ofNat
    | chars =>
      let (negative, digits) := readSign chars
      (decimal? digits).map fun n => if negative then -n else n
  number.filter fitsWord

/-- Whether the characters are an exponent: a letter, an optional sign and digits. -/
def isExponent : List Char → Bool
  | mark :: rest => (mark = 'e' || mark = 'E') && (grouped? 10 (readSign rest).2).isSome
  | [] => false

/-- Whether `c` is a digit or stands between digits. -/
def isGroupChar (c : Char) : Bool := c.isDigit || c = '_'

/-- Whether the characters, which have no sign, write a number with a point or an exponent. -/
def isFractional (chars : List Char) : Bool :=
  (decimal? (chars.takeWhile isGroupChar)).isSome &&
  match chars.dropWhile isGroupChar with
  | '.' :: rest =>
    let exponent := rest.dropWhile isGroupChar
    (grouped? 10 (rest.takeWhile isGroupChar)).isSome && (exponent.isEmpty || isExponent exponent)
  | exponent => isExponent exponent

/-- The number that is written with a point or an exponent, or by name. Infinity is only written by
name. -/
def number? (chars : List Char) : Option Binary64 :=
  let (negative, digits) := readSign chars
  if digits = "inf".toList then some (.infinite negative)
  else if digits = "nan".toList then some .nan
  else if isFractional digits then
    (Binary64.ofUnsigned? negative (digits.filter (· != '_'))).filter fun
      | .infinite _ => false
      | _ => true
  else none

/-- Number of days of a month. -/
def monthLength (year month : Nat) : Nat :=
  if month = 2 then
    if year % 4 = 0 ∧ (year % 100 ≠ 0 ∨ year % 400 = 0) then 29 else 28
  else if [4, 6, 9, 11].contains month then 30
  else 31

/-- Reads a number of exactly `width` digits that lies between two bounds, and what follows. -/
def readField (width low high : Nat) (chars : List Char) : Option (List Char × Nat × List Char) :=
  if chars.length < width then none
  else do
    let value ← numeral? 10 (chars.take width)
    if low ≤ value ∧ value ≤ high then some (chars.take width, value, chars.drop width) else none

/-- Reads a date, and what follows. -/
def readDate (chars : List Char) : Option (List Char × List Char) := do
  let (yearText, year, rest) ← readField 4 0 9999 chars
  let (monthText, month, rest) ← readField 2 1 12 (← Read.after? '-' rest)
  let (dayText, _, rest) ← readField 2 1 (monthLength year month) (← Read.after? '-' rest)
  return (yearText ++ '-' :: monthText ++ '-' :: dayText, rest)

/-- The digits of a fraction of a second: at most nine, and no needless zero at the end. -/
def fractionText (digits : List Char) : List Char :=
  match Read.withoutEnd (· = '0') (digits.take 9) with
  | [] => ['0']
  | text => text

/-- Reads the seconds of a time, if it has any, and what follows. -/
def readSeconds (chars : List Char) : Option (List Char × List Char) :=
  match chars with
  | ':' :: rest => do
    let (text, _, rest) ← readField 2 0 60 rest
    match rest with
    | '.' :: rest =>
      let digits := rest.takeWhile Char.isDigit
      if digits.isEmpty then none
      else return (':' :: text ++ '.' :: fractionText digits, rest.dropWhile Char.isDigit)
    | rest => return (':' :: text, rest)
  | rest => some ([], rest)

/-- Reads a time, and what follows. -/
def readTime (chars : List Char) : Option (List Char × List Char) := do
  let (hours, _, rest) ← readField 2 0 23 chars
  let (minutes, _, rest) ← readField 2 0 59 (← Read.after? ':' rest)
  let (seconds, rest) ← readSeconds rest
  return (hours ++ ':' :: minutes ++ seconds, rest)

/-- The text of the offset of a time, to its end. A time may have none. -/
def offset? (chars : List Char) : Option (List Char) :=
  match chars with
  | [] => some []
  | ['Z'] | ['z'] => some ['Z']
  | sign :: rest =>
    if sign = '+' ∨ sign = '-' then do
      let (hourText, hours, rest) ← readField 2 0 23 rest
      let (minuteText, minutes, rest) ← readField 2 0 59 (← Read.after? ':' rest)
      let sign := if hours = 0 ∧ minutes = 0 then '+' else sign
      if rest.isEmpty then some (sign :: hourText ++ ':' :: minuteText) else none
    else none

/-- Whether the characters write a date alone. -/
def isDate (chars : List Char) : Bool := (readDate chars).any (·.2.isEmpty)

/-- Reads a date, a time, or a date and a time with a `T` or a blank between them, to the end. -/
def moment? (chars : List Char) : Option (List Char) :=
  match readDate chars with
  | none => (readTime chars).bind fun (time, rest) => if rest.isEmpty then some time else none
  | some (date, []) => some date
  | some (date, mark :: rest) =>
    if mark = 'T' ∨ mark = 't' ∨ mark = ' ' then do
      let (time, rest) ← readTime rest
      return date ++ 'T' :: time ++ (← offset? rest)
    else none

/-- The value that the characters write. -/
def scalar? (chars : List Char) : Option SettingValue :=
  if chars = "true".toList then some (.boolean true)
  else if chars = "false".toList then some (.boolean false)
  else ((integer? chars).map .integer).or
    (((number? chars).map .number).or ((moment? chars).map (.text <| String.ofList ·)))

/-- Reads a value that is not quoted, and what follows. One blank may stand between a date and a
time. -/
def readScalar (chars : List Char) : Option (SettingValue × List Char) :=
  let first := chars.takeWhile isBareChar
  let (text, rest) := match isDate first, chars.dropWhile isBareChar with
    | true, ' ' :: digit :: rest =>
      if digit.isDigit then
        (first ++ ' ' :: (digit :: rest).takeWhile isBareChar, rest.dropWhile isBareChar)
      else (first, ' ' :: digit :: rest)
    | _, rest => (first, rest)
  (scalar? text).map (·, rest)

end Linewise.Toml
