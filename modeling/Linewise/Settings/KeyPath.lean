import Linewise.Settings.Value
import Linewise.Text.Read

/-!
# Key paths

The key of a setting may lead into its value: `a.b` is the key `b` in the table
`a`, and `a[0]` an item of the list `a`. Giving something under such a path makes
a table or a list of the setting. A key that is not well written as a path is
taken literally.
-/

namespace Linewise

/-- A step into a value. -/
inductive KeyStep where
  /-- The value under a key of a table. -/
  | key (name : String)
  /-- The item of a list at an index, from the end if it is negative. -/
  | item (index : Int)
  deriving DecidableEq, Repr

/-- The name of a setting and the steps into its value. -/
structure KeyPath where
  root : String
  steps : List KeyStep
  deriving DecidableEq, Repr

namespace KeyPath

/-- Reads a name, and what follows. -/
def readName (chars : List Char) : Option (String × List Char) :=
  let name := chars.takeWhile Read.isNameChar
  if name.isEmpty then none else some (String.ofList name, chars.dropWhile Read.isNameChar)

/-- Reads an index up to its closing bracket, and what follows. -/
def readIndex (chars : List Char) : Option (Int × List Char) :=
  let chars := chars.dropWhile Read.isBlank
  let (sign, chars) := match chars with
    | '-' :: rest => (['-'], rest)
    | chars => ([], chars)
  let digits := chars.takeWhile Char.isDigit
  match (chars.dropWhile Char.isDigit).dropWhile Read.isBlank with
  | ']' :: rest => (signedWord? (String.ofList (sign ++ digits))).map (·, rest)
  | _ => none

/-- Reads steps to the end. Each uses up one unit of `fuel`. -/
def readSteps : Nat → List Char → Option (List KeyStep)
  | _, [] => some []
  | fuel + 1, '.' :: rest => do
    let (name, rest) ← readName rest
    return .key name :: (← readSteps fuel rest)
  | fuel + 1, '[' :: rest => do
    let (index, rest) ← readIndex rest
    return .item index :: (← readSteps fuel rest)
  | _, _ => none

/-- The path that a key writes. -/
def parse? (key : String) : Option KeyPath := do
  let (root, rest) ← readName key.toList
  return ⟨root, ← readSteps rest.length rest⟩

/-- The path that a key stands for: itself taken literally, if it writes none. -/
def ofKey (key : String) : KeyPath := (parse? key).getD ⟨key, []⟩

/-- The value of a setting after `given` was given under a path. Only the first step into the
value shows in it. -/
def put (path : KeyPath) (given : SettingValue) (value : SettingValue) : SettingValue :=
  match path.steps with
  | [] => value.merge given
  | .key name :: _ => value.withKey name
  | .item _ :: _ => .list

end KeyPath

end Linewise
