import Linewise.Toml.Quoted
import Linewise.Toml.Scalar
import Linewise.Toml.Table

/-!
# Values in TOML

A value is quoted or not, a list between brackets, or a table between braces.
Lists and tables may go over several lines, hold comments, end in a comma, and
stand in each other up to eighty deep. Keys are bare or quoted, and points make a
path of them, with at most eighty parts.
-/

namespace Linewise.Toml

/-- How deep lists and tables may stand in each other. -/
def maxDepth : Nat := 80

/-- How many parts a key may have. -/
def maxKeyParts : Nat := 80

/-- Reads one part of a key, and what follows. -/
def readKeyPart (chars : List Char) : Option (String × List Char) :=
  match chars with
  | '"' :: _ | '\'' :: _ => (readQuoted chars).map fun (text, rest) => (String.ofList text, rest)
  | _ =>
    let key := chars.takeWhile Read.isNameChar
    if key.isEmpty then none else some (String.ofList key, chars.dropWhile Read.isNameChar)

/-- Reads a key of at most `parts` parts with all its points, and what follows it and its blanks. -/
def readParts (parts : Nat) (chars : List Char) : Option (List String × List Char) :=
  match parts with
  | 0 => none
  | parts + 1 => do
    let (part, rest) ← readKeyPart (chars.dropWhile Read.isBlank)
    match rest.dropWhile Read.isBlank with
    | '.' :: rest =>
      let (path, rest) ← readParts parts rest
      return (part :: path, rest)
    | rest => return ([part], rest)

/-- Reads a key with all its points, and what follows it and its blanks. -/
def readKey (chars : List Char) : Option (List String × List Char) := readParts maxKeyParts chars

/-- Reads a key with all its points and the sign before its value, and what follows. Around the sign
`skip` passes over what does not count. -/
def readKeySign (skip : List Char → List Char) (chars : List Char) :
    Option (List String × List Char) := do
  let (path, rest) ← readKey chars
  return (path, skip (← Read.after? '=' (skip rest)))

mutual

/-- Reads a value, and what follows. Lists and tables may stand in each other up to `depth` deep.
Each of them and each item in them uses up one unit of `fuel`, so that the number of characters is
enough. -/
def readValue (fuel depth : Nat) (chars : List Char) : Option (SettingValue × List Char) :=
  match fuel, depth, chars with
  | fuel + 1, depth + 1, '[' :: rest =>
    (readItems fuel depth (skipGap false rest)).map (.list, ·)
  | fuel + 1, depth + 1, '\x7b' :: rest => do
    let (fields, rest) ← readFields fuel depth [] (skipGap false rest)
    return ((Item.table .dotted fields).toValue, rest)
  | _, _, chars => match readString chars with
    | some (text, rest) => some (.text (String.ofList text), rest)
    | none => readScalar chars

/-- Reads the items of a list up to its closing bracket, and gives what follows. -/
def readItems (fuel depth : Nat) (chars : List Char) : Option (List Char) :=
  match fuel, chars with
  | _, ']' :: rest => some rest
  | 0, _ => none
  | fuel + 1, chars => do
    let (_, rest) ← readValue fuel depth chars
    match skipGap false rest with
    | ']' :: rest => return rest
    | ',' :: rest => readItems fuel depth (skipGap false rest)
    | _ => none

/-- Reads the fields of a table after those already `seen`, up to its closing brace, and what
follows. -/
def readFields (fuel depth : Nat) (seen : Fields) (chars : List Char) :
    Option (Fields × List Char) :=
  match fuel, chars with
  | _, '\x7d' :: rest => some (seen, rest)
  | 0, _ => none
  | fuel + 1, chars => do
    let (path, rest) ← readKeySign (skipGap false) chars
    let (value, rest) ← readValue fuel depth rest
    let seen ← seen.define value path
    match skipGap false rest with
    | '\x7d' :: rest => return (seen, rest)
    | ',' :: rest => readFields fuel depth seen (skipGap false rest)
    | _ => none

end

end Linewise.Toml
