/-!
# JSON values

A JSON value and its printed form over several lines: two blanks of indentation
for each level, one item or field on a line, and nothing between the brackets of
an empty array or object.
-/

namespace Linewise

/-- A JSON value. Numbers are kept as they are written, fields in the order given. -/
inductive Json where
  | null
  | bool (value : Bool)
  | number (literal : String)
  | string (value : String)
  | array (items : List Json)
  | object (fields : List (String × Json))
  deriving Inhabited

namespace Json

/-- The number `n`. -/
def nat (n : Nat) : Json := .number (toString n)

/-- The array of the encoded items. -/
def list {α : Type} (encode : α → Json) (items : List α) : Json := .array (items.map encode)

/-- The array of the given strings. -/
def strings (items : List String) : Json := list .string items

/-- The hexadecimal digit of a number below 16. -/
def hexDigit (n : Nat) : Char := if n < 10 then Char.ofNat (48 + n) else Char.ofNat (87 + n)

/-- A character as it stands in a quoted string. -/
def escaped (c : Char) : List Char :=
  if c = '"' then ['\\', '"']
  else if c = '\\' then ['\\', '\\']
  else if c = '\n' then ['\\', 'n']
  else if c = '\r' then ['\\', 'r']
  else if c = '\t' then ['\\', 't']
  else if c = '\x08' then ['\\', 'b']
  else if c = '\x0c' then ['\\', 'f']
  else if c.toNat < 32 then
    ['\\', 'u', '0', '0', hexDigit (c.toNat / 16), hexDigit (c.toNat % 16)]
  else [c]

/-- A string between quotes. -/
def quoted (text : String) : String :=
  "\"" ++ String.ofList (text.toList.flatMap escaped) ++ "\""

/-- The line feed and the blanks before an item at the given level. -/
def indent (level : Nat) : String := "\n" ++ String.ofList (List.replicate (2 * level) ' ')

/-- Printed items between brackets, each on a line of its own one level further in. -/
def bracketed (level : Nat) (opening closing : String) (items : List String) : String :=
  if items.isEmpty then opening ++ closing
  else opening ++ indent (level + 1) ++ ("," ++ indent (level + 1)).intercalate items ++
    indent level ++ closing

mutual

/-- The printed form of a value whose brackets stand at the given level. -/
def prettyAt (level : Nat) : Json → String
  | .null => "null"
  | .bool value => if value then "true" else "false"
  | .number literal => literal
  | .string value => quoted value
  | .array items => bracketed level "[" "]" (prettyItems (level + 1) items)
  | .object fields => bracketed level "\x7b" "\x7d" (prettyFields (level + 1) fields)

/-- The printed forms of the items of an array. -/
def prettyItems (level : Nat) : List Json → List String
  | [] => []
  | item :: rest => prettyAt level item :: prettyItems level rest

/-- The printed forms of the fields of an object. -/
def prettyFields (level : Nat) : List (String × Json) → List String
  | [] => []
  | (name, value) :: rest =>
    (quoted name ++ ": " ++ prettyAt level value) :: prettyFields level rest

end

/-- The printed form over several lines. -/
def pretty (value : Json) : String := prettyAt 0 value

end Json

end Linewise
