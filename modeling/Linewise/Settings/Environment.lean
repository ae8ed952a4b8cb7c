import Linewise.Settings.Entries

/-!
# Settings in the environment

A variable whose name starts with a mark gives a value under the key that follows
it. Names are in either case, and two underscores separate the parts of a path.
-/

namespace Linewise.Environment

/-- The variables of an environment, with their values. -/
abbrev Variables := List (String × String)

/-- What the name of a variable that gives a setting starts with, in lower case. -/
def mark : String := "linediff__"

/-- A name with a point in place of any two underscores. -/
def pointed : List Char → List Char
  | '_' :: '_' :: rest => '.' :: pointed rest
  | c :: rest => c :: pointed rest
  | [] => []

/-- The key under which a variable gives a value, if it gives one. -/
def key? (name : String) : Option String :=
  let chars := (SettingValue.lowered name).toList
  if mark.toList.isPrefixOf chars then
    some (String.ofList (pointed (chars.drop mark.length)))
  else none

/-- The value that a variable gives: a switch if it is `true` or `false` in letters of either case,
else a whole number of 64 bits or another number if it writes one, else a text. -/
def value (text : String) : SettingValue :=
  if SettingValue.lowered text = "true" then .boolean true
  else if SettingValue.lowered text = "false" then .boolean false
  else match signedWord? text, Binary64.ofText? text with
    | some n, _ => .integer n
    | none, some x => .number x
    | none, none => .text text

/-- What the variables give. -/
def entries (given : Variables) : Entries :=
  given.filterMap fun (name, text) => (key? name).map (·, value text)

end Linewise.Environment
