import Linewise.Datum

/-!
# Values without parts in YAML

A plain value without a tag is a whole number, a truth value, nothing, another
number, or else a text. A tag of the core says what a plain value is. What does
not suit such a tag is not valid.
-/

namespace Linewise.Yaml

/-- A value without parts. -/
inductive Scalar where
  | nothing
  /-- A value that does not suit its tag, or that is not complete where it is named. -/
  | invalid
  | boolean (value : Bool)
  | integer (value : Int)
  /-- A number that is no integer, as it is written. -/
  | number (text : String)
  | text (value : String)
  deriving DecidableEq, Repr

/-- The number of a signed 64-bit word written in the given base, with an optional sign. -/
def wordIn? (base : Nat) (chars : List Char) : Option Int :=
  let (negative, digits) := readSign chars
  let number : Option Int := (numeral? base digits).map fun n => if negative then -n else n
  number.filter fitsWord

/-- The integer that a plain value writes: in decimal, where a second sign may follow a plus sign,
or in one of two other bases. -/
def integer? (text : String) : Option Int :=
  let other := match text.toList with
    | '0' :: 'x' :: digits => wordIn? 16 digits
    | '0' :: 'o' :: digits => wordIn? 8 digits
    | '+' :: digits => wordIn? 10 digits
    | _ => none
  other.or (signedWord? text)

/-- The names of infinity, its negative and no number. -/
def numberNames : List String :=
  [".inf", ".Inf", ".INF", "+.inf", "+.Inf", "+.INF", "-.inf", "-.Inf", "-.INF", ".nan", ".NaN",
    ".NAN"]

/-- Whether a plain value writes a number. -/
def isNumber (text : String) : Bool :=
  numberNames.contains text ||
    (text.toList.any Char.isDigit && (Binary64.ofText? text).isSome)

/-- The truth value that a plain value writes. -/
def boolean? (text : String) : Option Bool :=
  if text = "true" then some true else if text = "false" then some false else none

namespace Scalar

/-- What a plain value without a tag stands for. -/
def ofPlain (word : String) : Scalar :=
  match integer? word, boolean? word with
  | some n, _ => .integer n
  | none, some value => .boolean value
  | none, none =>
    if ["", "~", "null"].contains word then .nothing
    else if isNumber word then .number word
    else .text word

/-- What a plain value with a tag of the core stands for. -/
def ofTagged (tag word : String) : Scalar :=
  match tag with
  | "bool" => (boolean? word).elim .invalid .boolean
  | "int" => (signedWord? word).elim .invalid .integer
  | "float" => if isNumber word then .number word else .invalid
  | "null" => if ["~", "null"].contains word then .nothing else .invalid
  | _ => .text word

/-- The data that a value stands for. A number must be written in digits. -/
def toDatum? : Scalar → Option Datum
  | .nothing | .invalid => some .nothing
  | .boolean value => some (.boolean value)
  | .integer value => some (.integer value)
  | .number word => (Binary64.ofText? word).map .number
  | .text value => some (.text value)

/-- The key for which a value stands, if it is something. A number must be written in digits where
it is a value, and not where it is a key. -/
def toKey? : Scalar → Option String
  | .nothing | .invalid => none
  | .boolean value => some (if value then "true" else "false")
  | .integer value => some (toString value)
  | .number word | .text word => some word

end Scalar

end Linewise.Yaml
