import Linewise.Number.Shortest
import Linewise.Policy

/-!
# Values of settings

Settings files and the environment give values of several forms. What a setting
needs is made from such a value where that has a plain meaning: a count from a
number, a switch or a word, a switch from a number or a word, a policy from its
name, and a text from anything that is written as one. No setting takes a list,
so lists are not looked into, and of a table only the keys matter.
-/

namespace Linewise

/-- A value given for a setting. -/
inductive SettingValue where
  /-- No value. -/
  | nothing
  | integer (value : Int)
  | number (value : Binary64)
  | boolean (value : Bool)
  | text (value : String)
  /-- A list of values. -/
  | list
  /-- A table with the given keys, none of them twice. -/
  | table (keys : List String)
  deriving DecidableEq, Repr

namespace SettingValue

/-- A letter in lower case, if that is a letter of ASCII; other characters stay as they are. The
kelvin sign is a capital of the letter k. -/
def loweredChar (c : Char) : Char := if c = '\u212A' then 'k' else c.toLower

/-- A text in lower case, as far as the letters of ASCII go. -/
def lowered (text : String) : String := String.ofList (text.toList.map loweredChar)

/-- The switch that a word stands for, in letters of either case. -/
def wordSwitch? (text : String) : Option Bool :=
  if ["true", "on", "yes"].contains (lowered text) then some true
  else if ["false", "off", "no"].contains (lowered text) then some false
  else none

/-- The count that a switch stands for. -/
def countOfSwitch (on : Bool) : Nat := if on then 1 else 0

/-- The count that a value stands for. -/
def toCount? : SettingValue → Option Nat
  | .integer n => if 0 ≤ n then some n.toNat else none
  | .number x => some x.toCount
  | .boolean on => some (countOfSwitch on)
  | .text s => ((wordSwitch? s).map countOfSwitch).or (word? s)
  | .nothing | .list | .table _ => none

/-- The switch that a value stands for. -/
def toSwitch? : SettingValue → Option Bool
  | .integer n => some (n != 0)
  | .number x => some x.isNonzero
  | .boolean on => some on
  | .text s => if s = "1" then some true else if s = "0" then some false else wordSwitch? s
  | .nothing | .list | .table _ => none

/-- The policy that a value names, as a text or as the only key of a table. -/
def toPolicy? : SettingValue → Option Policy
  | .text name | .table [name] => Policy.ofName? name
  | _ => none

/-- The text of a value. -/
def toText? : SettingValue → Option String
  | .integer n => some (toString n)
  | .number x => some x.toText
  | .boolean on => some (if on then "true" else "false")
  | .text s => some s
  | .nothing | .list | .table _ => none

/-- The keys with one more, unless it is among them. -/
def addKey (keys : List String) (key : String) : List String :=
  if keys.contains key then keys else keys ++ [key]

/-- The value after a later one was given for the same setting. A table is merged into a table, and
anything else takes the place of what was there. -/
def merge : SettingValue → SettingValue → SettingValue
  | .table keys, .table added => .table (added.foldl addKey keys)
  | _, later => later

/-- The value after something was given under a key of it. -/
def withKey (value : SettingValue) (key : String) : SettingValue := value.merge (.table [key])

end SettingValue

end Linewise
