import Linewise.Datum
import Linewise.Ron.Quoted

/-!
# Numbers in RON

A whole number is written in one of four bases, and the name of a type may follow
it, into which it has to fit. Other numbers are written in decimal notation, and
the name of a type may follow them too. Underscores may stand after a digit.
-/

namespace Linewise.Ron

/-- Whether `c` may stand in a whole number. -/
def isWholeChar (c : Char) : Bool := (digit? 16 c).isSome || c = '_'

/-- Whether `c` may stand in decimal notation. -/
def isDecimalChar (c : Char) : Bool :=
  c.isDigit || c = 'e' || c = 'E' || c = '.' || c = '+' || c = '-' || c = '_'

/-- What follows a word, if the word does not go on there. -/
def afterWord? (word : String) (chars : List Char) : Option (List Char) :=
  let rest := chars.drop word.length
  if word.toList.isPrefixOf chars && !rest.head?.any continuesName then some rest else none

/-- The names of the types of whole numbers, with the bounds of each. -/
def wholeTypes : List (String × Int × Int) :=
  [8, 16, 32, 64].flatMap fun (bits : Nat) =>
    let half : Int := Nat.pow 2 (bits - 1)
    [("i" ++ toString bits, -half, half), ("u" ++ toString bits, 0, 2 * half)]

/-- The bounds into which a whole number has to fit, and what follows the name of the type that says
so. Without one, these are the bounds of words of 64 bits, signed or not. -/
def readBounds (chars : List Char) : (Int × Int) × List Char :=
  let named := wholeTypes.findSome? fun (name, bounds) => (afterWord? name chars).map (bounds, ·)
  named.getD ((-(signedLimit : Int), (wordLimit : Int)), chars)

/-- The base of a whole number, and what follows its mark. -/
def readBase : List Char → Nat × List Char
  | '0' :: 'x' :: rest => (16, rest)
  | '0' :: 'o' :: rest => (8, rest)
  | '0' :: 'b' :: rest => (2, rest)
  | rest => (10, rest)

/-- Reads a whole number, and what follows. -/
def readWhole (chars : List Char) : Option (Datum × List Char) := do
  let (negative, rest) := readSign chars
  let (base, rest) := readBase rest
  let digits := rest.takeWhile isWholeChar
  if digits.head? = some '_' then none
  else
    let n ← numeral? base (digits.filter (· ≠ '_'))
    let value : Int := if negative then -n else n
    let ((low, high), rest) := readBounds (rest.dropWhile isWholeChar)
    if low ≤ value ∧ value < high then some (.integer value, rest) else none

/-- Decimal notation without its underscores. One may stand where `allowed`, which is after a digit
or the mark of the exponent. -/
def withoutUnderscores? (allowed : Bool) : List Char → Option (List Char)
  | [] => some []
  | '_' :: rest => if allowed then withoutUnderscores? allowed rest else none
  | c :: rest =>
    let allowed := c ≠ '.' && (allowed || c.isDigit || c = 'e' || c = 'E')
    (withoutUnderscores? allowed rest).map (c :: ·)

/-- What follows the name of a type of floating-point numbers, and whether that has 32 bits. -/
def readWidth (chars : List Char) : Bool × List Char :=
  match afterWord? "f32" chars, afterWord? "f64" chars with
  | some rest, _ => (true, rest)
  | none, some rest => (false, rest)
  | none, none => (false, chars)

/-- Reads a number in decimal notation, and what follows. -/
def readDecimal (chars : List Char) : Option (Datum × List Char) := do
  let plain ← withoutUnderscores? false (chars.takeWhile isDecimalChar)
  let (negative, digits) := readSign plain
  let (digits, exponent) ← Binary64.decimal? digits
  let (short, rest) := readWidth (chars.dropWhile isDecimalChar)
  let round := if short then Binary64.ofDecimal32 else Binary64.ofDecimal
  return (.number (round negative digits exponent), rest)

/-- The numbers with a name. -/
def namedNumbers (negative : Bool) : List (String × Binary64) :=
  ["", "f32", "f64"].flatMap fun width =>
    [("inf" ++ width, .infinite negative), ("NaN" ++ width, .nan)]

/-- Reads a number by its name, and what follows. -/
def readNamed (chars : List Char) : Option (Datum × List Char) :=
  let (negative, name) := readSign chars
  (namedNumbers negative).findSome? fun (word, value) =>
    (afterWord? word name).map (.number value, ·)

/-- Reads a number, and what follows. It is in decimal notation if that reaches further than a whole
number, or if it is no whole number. -/
def readNumber (chars : List Char) : Option (Datum × List Char) :=
  let (_, digits) := readSign chars
  let other := (readNamed chars).or (readDecimal chars)
  if (digits.takeWhile isWholeChar).length < (digits.takeWhile isDecimalChar).length then other
  else (readWhole chars).or other

end Linewise.Ron
