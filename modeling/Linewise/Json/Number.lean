import Linewise.Datum

/-!
# Numbers in JSON

A whole number that fits into a word of 64 bits, signed or not, is an integer. Any
other number is a floating-point number, worked out in a few rounded steps: the
digits that fit into a word are scaled by powers of ten, each of them rounded. So
the result may differ from the nearest number in the last place, and a number is
out of range if a step is.
-/

namespace Linewise.Json

/-- The whole number to which digits bring `start`, as far as it fits into a word of 64 bits, and
the digits from the first that does not fit. -/
def takeDigits (start : Nat) : List Char → Nat × List Char
  | [] => (start, [])
  | c :: rest =>
    let next := 10 * start + (c.toNat - '0'.toNat)
    if next < wordLimit then takeDigits next rest else (start, c :: rest)

/-- The greatest power of ten among the numbers. -/
def maxPower : Nat := 308

/-- The number nearest to a power of ten. -/
def powerOfTen (power : Nat) : Binary64 := .ofDecimal false 1 power

/-- A number divided by a power of ten, in at most `steps` steps before the last one. -/
def scaleDown : Nat → Binary64 → Nat → Binary64
  | steps + 1, x, power =>
    if power ≤ maxPower then x.dividedBy (powerOfTen power)
    else scaleDown steps (x.dividedBy (powerOfTen maxPower)) (power - maxPower)
  | 0, x, power => if power ≤ maxPower then x.dividedBy (powerOfTen power) else .zero false

/-- A word scaled by a power of ten, unless that is out of range. Two steps down leave nothing of a
word. -/
def scaled? (word : Nat) (exponent : Int) : Option Binary64 :=
  let x := Binary64.ofDecimal false word 0
  if exponent < 0 then some (scaleDown 2 x (-exponent).toNat)
  else if word = 0 then some x
  else if maxPower < exponent then none
  else match x.times (powerOfTen exponent.toNat) with
    | .finite negative significand power => some (.finite negative significand power)
    | _ => none

/-- A number or its negative. -/
def withSign (negative : Bool) : Binary64 → Binary64
  | .finite _ significand exponent => .finite negative significand exponent
  | .infinite _ => .infinite negative
  | .nan => .nan

/-- The number with the given digits before and after the point, times a power of ten. Digits of the
whole part that do not fit count as zeros, and from the first digit of the fraction that does not
fit on none counts. -/
def fractional? (whole fraction : List Char) (power : Int) : Option Binary64 :=
  let (word, beyond) := takeDigits 0 whole
  let (word, dropped) := takeDigits word fraction
  scaled? word (power + beyond.length - (fraction.length - dropped.length : Nat))

/-- The value of a whole number. -/
def whole? (negative : Bool) (digits : List Char) : Option Datum :=
  let (word, beyond) := takeDigits 0 digits
  if !beyond.isEmpty then (scaled? word beyond.length).map fun x => .number (withSign negative x)
  else if !negative then some (.integer word)
  else if 0 < word ∧ word ≤ signedLimit then some (.integer (-word))
  else some (.number (Binary64.ofDecimal true word 0))

/-- Whether the characters are the digits of a whole number without needless zeros. -/
def isWhole : List Char → Bool
  | ['0'] => true
  | '0' :: _ => false
  | digits => !digits.isEmpty && digits.all Char.isDigit

/-- The value of a number without its sign: a whole number, with an optional point and exponent. -/
def magnitude? (negative : Bool) (chars : List Char) : Option Datum :=
  let whole := chars.takeWhile Char.isDigit
  if !isWhole whole then none
  else match chars.dropWhile Char.isDigit with
    | [] => whole? negative whole
    | '.' :: rest =>
      let fraction := rest.takeWhile Char.isDigit
      if fraction.isEmpty then none
      else do
        let power ← Binary64.exponentPart? (rest.dropWhile Char.isDigit)
        return .number (withSign negative (← fractional? whole fraction power))
    | rest => do
      let power ← Binary64.exponentPart? rest
      return .number (withSign negative (← fractional? whole [] power))

/-- Whether `c` may stand in a number. -/
def isNumberChar (c : Char) : Bool :=
  c.isDigit || c = '-' || c = '+' || c = '.' || c = 'e' || c = 'E'

/-- Reads a number, and what follows. -/
def readNumber (chars : List Char) : Option (Datum × List Char) :=
  let number := match chars.takeWhile isNumberChar with
    | '-' :: rest => magnitude? true rest
    | rest => magnitude? false rest
  number.map (·, chars.dropWhile isNumberChar)

end Linewise.Json
