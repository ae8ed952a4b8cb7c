import Linewise.Number.Numeral

/-!
# Floating-point numbers of 64 bits

A finite number is a significand below `2 ^ 53` times a power of two. Decimal
notation, products and quotients are rounded to the nearest such number, in exact
arithmetic, and a tie goes to the even significand. Some of these numbers fit into
32 bits, and decimal notation may also be rounded to those.
-/

namespace Linewise

/-- A floating-point number of 64 bits. -/
inductive Binary64 where
  /-- The number `significand * 2 ^ exponent`, or its negative. The exponent is at least -1074, and
  greater only if the significand has all its 53 bits. -/
  | finite (negative : Bool) (significand : Nat) (exponent : Int)
  /-- What lies beyond the finite numbers. -/
  | infinite (negative : Bool)
  /-- No number. -/
  | nan
  deriving DecidableEq, Repr

namespace Binary64

/-- The least exponent. -/
def minExponent : Int := -1074

/-- The greatest exponent. -/
def maxExponent : Int := 971

/-- Zero, which has a sign. -/
def zero (negative : Bool) : Binary64 := .finite negative 0 minExponent

/-- The whole number nearest to a quotient; a tie goes to the even one. -/
def roundQuotient (num den : Nat) : Nat :=
  let floor := num / den
  let rest := 2 * (num % den)
  if rest < den then floor
  else if den < rest then floor + 1
  else floor + floor % 2

/-- A number times a power of `base`, where a negative exponent counts as zero. -/
def timesPower (n base : Nat) (exponent : Int) : Nat := n * Nat.pow base exponent.toNat

/-- The exponent with which the significand of a positive quotient has the given number of bits, or
the least exponent. -/
def exponentFor (bits : Nat) (least : Int) (num den : Nat) : Int :=
  let high : Int := num.log2 - den.log2
  let below := timesPower num 2 (-high) < timesPower den 2 high
  max least (if below then high - bits else high - bits + 1)

/-- The number with a significand that rounding may have brought to `2 ^ 53`. -/
def ofRounded (negative : Bool) (significand : Nat) (exponent : Int) : Binary64 :=
  let (significand, exponent) :=
    if significand = Nat.pow 2 53 then (Nat.pow 2 52, exponent + 1) else (significand, exponent)
  if maxExponent < exponent then .infinite negative
  else .finite negative significand exponent

/-- The number nearest to a quotient of whole numbers, or to its negative. -/
def ofQuotient (negative : Bool) (num den : Nat) : Binary64 :=
  if num = 0 then zero negative
  else
    let exponent := exponentFor 53 minExponent num den
    let rounded := roundQuotient (timesPower num 2 (-exponent)) (timesPower den 2 exponent)
    ofRounded negative rounded exponent

/-- The number of 32 bits nearest to a quotient of whole numbers, or to its negative. Its
significand has at most 24 bits, it is at least `2 ^ -149` if it is not zero, and it lies below
`2 ^ 128`. -/
def ofQuotient32 (negative : Bool) (num den : Nat) : Binary64 :=
  if num = 0 then zero negative
  else
    let exponent := exponentFor 24 (-149) num den
    let rounded := roundQuotient (timesPower num 2 (-exponent)) (timesPower den 2 exponent)
    let whole := timesPower rounded 2 exponent
    if Nat.pow 2 128 ≤ whole then .infinite negative
    else ofQuotient negative whole (timesPower 1 2 (-exponent))

/-- The product of two numbers. Zero times what lies beyond all numbers is no number. -/
def times : Binary64 → Binary64 → Binary64
  | .finite n s e, .finite n' s' e' =>
    ofQuotient (n != n') (timesPower (s * s') 2 (e + e')) (timesPower 1 2 (-(e + e')))
  | .infinite n, .infinite n' => .infinite (n != n')
  | .infinite n, .finite n' s _ | .finite n' s _, .infinite n =>
    if s = 0 then .nan else .infinite (n != n')
  | _, _ => .nan

/-- The quotient of two numbers. A quotient of zeros is no number, nor is one of what lies beyond
all numbers. -/
def dividedBy : Binary64 → Binary64 → Binary64
  | .finite n s e, .finite n' s' e' =>
    if s' = 0 then (if s = 0 then .nan else .infinite (n != n'))
    else ofQuotient (n != n') (timesPower s 2 (e - e')) (timesPower s' 2 (e' - e))
  | .infinite n, .finite n' _ _ => .infinite (n != n')
  | .finite n _ _, .infinite n' => zero (n != n')
  | _, _ => .nan

/-- Number of decimal digits of a whole number. -/
def decimalLength (n : Nat) : Nat := (Nat.toDigits 10 n).length

/-- The number that `round` makes of `digits * 10 ^ exponent`, or of its negative. Where the result
is plain from the size alone, the power of ten is not worked out. -/
def ofDecimalBy (round : Bool → Nat → Nat → Binary64) (negative : Bool) (digits : Nat)
    (exponent : Int) : Binary64 :=
  if digits = 0 then zero negative
  else if 310 < decimalLength digits + exponent then .infinite negative
  else if decimalLength digits + exponent < -330 then zero negative
  else round negative (timesPower digits 10 exponent) (timesPower 1 10 (-exponent))

/-- The number nearest to `digits * 10 ^ exponent`, or to its negative. -/
def ofDecimal (negative : Bool) (digits : Nat) (exponent : Int) : Binary64 :=
  ofDecimalBy ofQuotient negative digits exponent

/-- The number of 32 bits nearest to `digits * 10 ^ exponent`, or to its negative. -/
def ofDecimal32 (negative : Bool) (digits : Nat) (exponent : Int) : Binary64 :=
  ofDecimalBy ofQuotient32 negative digits exponent

/-- The exponent part of a decimal notation: nothing, or a letter, an optional sign and digits. -/
def exponentPart? : List Char → Option Int
  | [] => some 0
  | mark :: rest =>
    let (negative, digits) := readSign rest
    if mark = 'e' ∨ mark = 'E' then
      (numeral? 10 digits).map fun n => if negative then -n else n
    else none

/-- The digits of a decimal notation without a sign, and the power of ten by which they count:
digits with an optional point before, among or after them, and an optional exponent. -/
def decimal? (chars : List Char) : Option (Nat × Int) :=
  let whole := chars.takeWhile Char.isDigit
  let rest := chars.dropWhile Char.isDigit
  let (fraction, rest) := match rest with
    | '.' :: rest => (rest.takeWhile Char.isDigit, rest.dropWhile Char.isDigit)
    | rest => ([], rest)
  do
    let digits ← numeral? 10 (whole ++ fraction)
    let exponent ← exponentPart? rest
    return (digits, exponent - fraction.length)

/-- The number in decimal notation without a sign, or its negative. -/
def ofUnsigned? (negative : Bool) (chars : List Char) : Option Binary64 :=
  (decimal? chars).map fun (digits, exponent) => ofDecimal negative digits exponent

/-- The number that a text writes: decimal notation, or a name of infinity or of no number in
letters of either case, with an optional sign. -/
def ofText? (text : String) : Option Binary64 :=
  let (negative, chars) := readSign text.toList
  let name := String.ofList (chars.map Char.toLower)
  if name = "inf" ∨ name = "infinity" then some (.infinite negative)
  else if name = "nan" then some .nan
  else ofUnsigned? negative chars

/-- Whether the number is not zero. What is no number is not zero either. -/
def isNonzero : Binary64 → Bool
  | .finite _ significand _ => significand != 0
  | _ => true

/-- The greatest count that fits into 64 bits. -/
def maxCount : Nat := wordLimit - 1

/-- The count nearest to the number, where a half counts up: at least 0 and at most `maxCount`.
What is no number counts as 0. -/
def toCount : Binary64 → Nat
  | .finite false significand exponent =>
    let num := timesPower significand 2 exponent
    let den := timesPower 1 2 (-exponent)
    min maxCount ((2 * num + den) / (2 * den))
  | .infinite false => maxCount
  | _ => 0

end Binary64

end Linewise
