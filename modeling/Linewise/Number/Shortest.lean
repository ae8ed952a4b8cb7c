import Linewise.Number.Binary64

/-!
# Fewest digits

A finite number is written with the fewest decimal digits that read back as the
same number. Of two such candidates the nearer is taken, and a tie goes up. The
digits are laid out around the decimal point, however many zeros that takes.
-/

namespace Linewise.Binary64

/-- How many digits a positive quotient has before the decimal point, or minus how many zeros
follow the point before its first digit. -/
def magnitude (num den : Nat) : Int :=
  if den ≤ num then decimalLength (num / den)
  else -(((List.range 400).find? fun (zeros : Nat) =>
    den ≤ timesPower num 10 (zeros + 1)).getD 0 : Nat)

/-- A positive quotient as a decimal `digits * 10 ^ exponent`, if one of its two neighbours with
that exponent reads back as the number `x`. -/
def neighbour? (x : Binary64) (num den : Nat) (exponent : Int) : Option (Nat × Int) :=
  let num := timesPower num 10 (-exponent)
  let den := timesPower den 10 exponent
  let below := num / den
  match ofDecimal false below exponent == x, ofDecimal false (below + 1) exponent == x with
  | true, false => some (below, exponent)
  | false, true => some (below + 1, exponent)
  | true, true => some (if 2 * (num % den) < den then below else below + 1, exponent)
  | false, false => none

/-- The decimal with the fewest digits that reads back as `significand * 2 ^ exponent`, which is
positive. Seventeen digits are enough; the exact value stands in if they were not. -/
def fewestDigits (significand : Nat) (exponent : Int) : Nat × Int :=
  let num := timesPower significand 2 exponent
  let den := timesPower 1 2 (-exponent)
  let found := (List.range 17).findSome? fun (rest : Nat) =>
    neighbour? (.finite false significand exponent) num den (magnitude num den - (rest + 1))
  found.getD (timesPower num 5 (-exponent), min exponent 0)

/-- The text of `digits * 10 ^ exponent` without an exponent: zeros fill the places between the
digits and the point, and no zero ends the places after it. -/
def positional (digits : Nat) (exponent : Int) : String :=
  let chars := Nat.toDigits 10 digits
  if 0 ≤ exponent then String.ofList (chars ++ List.replicate exponent.toNat '0')
  else
    let places := (-exponent).toNat
    let padded := List.replicate (places + 1 - chars.length) '0' ++ chars
    let whole := padded.take (padded.length - places)
    let fraction := (padded.drop (padded.length - places)).reverse.dropWhile (· = '0') |>.reverse
    String.ofList (if fraction.isEmpty then whole else whole ++ '.' :: fraction)

/-- The text of a number. -/
def toText : Binary64 → String
  | .finite negative significand exponent =>
    let (digits, power) :=
      if significand = 0 then (0, 0) else fewestDigits significand exponent
    (if negative then "-" else "") ++ positional digits power
  | .infinite negative => if negative then "-inf" else "inf"
  | .nan => "NaN"

end Linewise.Binary64
