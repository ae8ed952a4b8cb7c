import Linewise.Text.Name

/-!
# Space and names in RON

White space and comments may stand between the parts of a text, and comments
between brackets in each other. A name is made of letters and the like. After a
mark it may also hold points and signs.
-/

namespace Linewise.Ron

/-- Whether `c` is white space between the parts of a text. -/
def isSpace (c : Char) : Bool :=
  (0x9 ≤ c.toNat && c.toNat ≤ 0xD) ||
    [0x20, 0x85, 0x200E, 0x200F, 0x2028, 0x2029].contains c.toNat

/-- What follows the end of a comment between brackets that stands in `depth` others. -/
def closeComment? (depth : Nat) : List Char → Option (List Char)
  | '/' :: '*' :: rest => closeComment? (depth + 1) rest
  | '*' :: '/' :: rest => if depth = 0 then some rest else closeComment? (depth - 1) rest
  | _ :: rest => closeComment? depth rest
  | [] => none

/-- What follows white space and comments. Each comment uses up one unit of `fuel`. -/
def skipComments (fuel : Nat) (chars : List Char) : Option (List Char) :=
  match fuel, chars.dropWhile isSpace with
  | fuel + 1, '/' :: '/' :: rest => skipComments fuel (rest.dropWhile (· ≠ '\n'))
  | fuel + 1, '/' :: '*' :: rest => do skipComments fuel (← closeComment? 0 rest)
  | _, '/' :: _ => none
  | _, rest => some rest

/-- What follows white space and comments. A slash that begins no comment is refused. -/
def skip (chars : List Char) : Option (List Char) := skipComments chars.length chars

/-- Whether `c` may begin a name. -/
def isNameStart (c : Char) : Bool := c = '_' || startsName c

/-- Whether `c` may stand in a marked name. -/
def isMarkedChar (c : Char) : Bool := continuesName c || c = '.' || c = '+' || c = '-'

/-- The beginnings of quoted values that look like names. -/
def quotedStarts : List (List Char) :=
  ["b\"", "b'", "br\"", "br#\"", "br##", "r\"", "r#\"", "r##"].map String.toList

/-- Whether a quoted value begins here and no name. -/
def startsQuoted (chars : List Char) : Bool := quotedStarts.any (·.isPrefixOf chars)

/-- A name as it is written. -/
structure Name where
  /-- Whether the mark `r#` stands before the name. -/
  marked : Bool
  chars : List Char
  deriving DecidableEq, Repr

/-- Reads a name, and what follows. -/
def readName (chars : List Char) : Option (Name × List Char) :=
  if startsQuoted chars then none
  else match chars with
    | 'r' :: '#' :: rest =>
      let name := rest.takeWhile isMarkedChar
      if name.isEmpty then none else some (⟨true, name⟩, rest.dropWhile isMarkedChar)
    | c :: rest =>
      if isNameStart c then
        some (⟨false, c :: rest.takeWhile continuesName⟩, rest.dropWhile continuesName)
      else none
    | [] => none

/-- Reads the name of a field, and what follows. A name without a mark must not go on as only a
marked one could. -/
def readFieldName (chars : List Char) : Option (List Char × List Char) := do
  let (name, rest) ← readName chars
  if rest.head?.any isMarkedChar then none else some (name.chars, rest)

end Linewise.Ron
