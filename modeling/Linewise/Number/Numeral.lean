/-!
# Numerals

Whole numbers written in digits of some base, and those that fit into a machine
word of 64 bits.
-/

namespace Linewise

/-- The value of a digit in the given base, with letters of either case for digits from ten on. -/
def digit? (base : Nat) (c : Char) : Option Nat :=
  let value :=
    if '0' ≤ c ∧ c ≤ '9' then c.toNat - '0'.toNat
    else if 'a' ≤ c ∧ c ≤ 'z' then c.toNat - 'a'.toNat + 10
    else if 'A' ≤ c ∧ c ≤ 'Z' then c.toNat - 'A'.toNat + 10
    else base
  if value < base then some value else none

/-- The number that digits write in the given base; there must be at least one. -/
def numeral? (base : Nat) : List Char → Option Nat
  | [] => none
  | digits => digits.foldlM (fun value c => (digit? base c).map (base * value + ·)) 0

/-- A sign at the start of a numeral, and what follows it. Without one the number is positive. -/
def readSign : List Char → Bool × List Char
  | '+' :: rest => (false, rest)
  | '-' :: rest => (true, rest)
  | chars => (false, chars)

/-- Unsigned 64-bit words lie below this number. -/
def wordLimit : Nat := Nat.pow 2 64

/-- Signed 64-bit words lie below this number, and not below its negative. -/
def signedLimit : Nat := Nat.pow 2 63

/-- Whether a number fits into a signed 64-bit word. -/
def fitsWord (n : Int) : Bool := -(signedLimit : Int) ≤ n && n < (signedLimit : Int)

/-- The number of an unsigned 64-bit word written in decimal, with an optional plus sign. -/
def word? (text : String) : Option Nat :=
  let digits := match text.toList with
    | '+' :: rest => rest
    | digits => digits
  (numeral? 10 digits).filter (· < wordLimit)

/-- The number of a signed 64-bit word written in decimal, with an optional sign. -/
def signedWord? (text : String) : Option Int :=
  let (negative, digits) := readSign text.toList
  let number : Option Int := (numeral? 10 digits).map fun n => if negative then -n else n
  number.filter fitsWord

end Linewise
