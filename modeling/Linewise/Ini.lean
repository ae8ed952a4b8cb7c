import Linewise.Datum
import Linewise.Text.Line
import Linewise.Text.Read
import Linewise.Text.WhiteSpace

/-!
# INI texts

An INI text gives texts to keys, `key = value` or `key: value`, and names
sections in brackets. A value ends with its line, unless it is quoted. A comment
starts a line. A line that starts with a blank belongs to the next key, whatever
else it holds.
-/

namespace Linewise.Ini

/-- The character that an escape of one letter stands for. Other characters stand for themselves. -/
def unescaped : Char → Char
  | '0' => '\x00'
  | 'a' => '\x07'
  | 'b' => '\x08'
  | 't' => '\t'
  | 'r' => '\r'
  | 'n' => '\n'
  | c => c

/-- The character whose code point stands in the first four characters: hexadecimal digits, of which
a plus sign may take the place of the first. -/
def codePoint? : List Char → Option Char
  | '+' :: rest => (Read.readCodePoint 3 rest).map Prod.fst
  | chars => (Read.readCodePoint 4 chars).map Prod.fst

/-- Reads an escape after its backslash, and what follows. An escaped line feed does not count. If
the escape stands for no character, only what follows it is given, as an error. -/
def readEscape : List Char → Except (List Char) (List Char × List Char)
  | 'x' :: rest => match codePoint? rest with
    | some c => .ok ([c], rest.drop 4)
    | none => .error (rest.drop 4)
  | '\n' :: rest => .ok ([], rest)
  | c :: rest => .ok ([unescaped c], rest)
  | [] => .error []

/-- Reads up to one of the characters in `stops`, or to the end, and gives what follows from there.
A backslash at the end stands for itself. Each step uses up one unit of `fuel`. If an escape stands
for no character, what follows it is given as an error. -/
def readUntil (stops : List Char) (fuel : Nat) (chars : List Char) :
    Except (List Char) (List Char × List Char) :=
  match fuel, chars with
  | _, [] => .ok ([], [])
  | _, ['\\'] => .ok (['\\'], [])
  | 0, rest => .error rest
  | fuel + 1, c :: rest =>
    if stops.contains c then .ok ([], c :: rest)
    else do
      let (read, rest) ← if c = '\\' then readEscape rest else .ok ([c], rest)
      let (text, rest) ← readUntil stops fuel rest
      return (read ++ text, rest)

/-- Reads up to a closing character, and gives what follows it. -/
def readClosed (closing : Char) (chars : List Char) : Option (List Char × List Char) := do
  let (text, rest) ← (readUntil [closing] chars.length chars).toOption
  return (text, ← Read.after? closing rest)

/-- A text without white space at its ends. -/
def trimmed (chars : List Char) : String := String.ofList (Line.strip isWhiteSpace chars)

/-- Reads a key up to the sign after it, and gives what follows from there. At the end of the text
there is no sign. -/
def readKey (chars : List Char) : Except (List Char) (String × List Char) :=
  (readUntil ['=', ':'] chars.length chars).map fun (key, rest) => (trimmed key, rest)

/-- Whether `c` is white space within a line. -/
def isInlineSpace (c : Char) : Bool := isWhiteSpace c && c != '\n' && c != '\r'

/-- Reads a value up to the end of its line, where each quoted part loses its quotes, and gives what
follows. White space at the ends does not count, but for that in quotes. -/
def readValue (first : Bool) (fuel : Nat) (chars : List Char) :
    Option (List Char × List Char) :=
  match fuel, chars with
  | fuel + 1, '"' :: rest => do
    let (quoted, rest) ← readClosed '"' rest
    let (text, rest) ← readValue false fuel rest
    return (quoted ++ text, rest)
  | fuel + 1, '\'' :: rest => do
    let (quoted, rest) ← readClosed '\'' rest
    let (text, rest) ← readValue false fuel rest
    return (quoted ++ text, rest)
  | _, chars => do
    let (text, rest) ← (readUntil ['\n', '\r'] chars.length chars).toOption
    let text := Read.withoutEnd isWhiteSpace text
    return (if first then text.dropWhile isWhiteSpace else text, rest)

/-- What was read so far. -/
structure Progress where
  /-- What is given before the section that is open. -/
  before : List (String × Datum) := []
  /-- The section that is open, if one is. -/
  opened : Option String := none
  /-- What is given in the section that is open. -/
  given : List (String × Datum) := []

namespace Progress

/-- All that is given. -/
def fields (p : Progress) : List (String × Datum) :=
  match p.opened with
  | none => p.given
  | some name => p.before ++ [(name, .table p.given)]

/-- Opens a section. -/
def openSection (p : Progress) (name : String) : Progress := ⟨p.fields, some name, []⟩

/-- Gives a text to a key. -/
def give (p : Progress) (key text : String) : Progress :=
  { p with given := p.given ++ [(key, .text text)] }

end Progress

/-- What follows white space, and whether it starts a line, as the text before does if `starts`. The
blanks at the start of a line are left. -/
def skipSpace (starts : Bool) : List Char → Bool × List Char
  | [] => (starts, [])
  | c :: rest =>
    if !isWhiteSpace c then (starts, c :: rest)
    else if (c = '\n' || c = '\r') && rest.head?.any Read.isBlank then (c = '\n', rest)
    else skipSpace (c = '\n') rest

/-- Reads comments, sections, keys and values to the end, after white space. Each uses up one unit
of `fuel`. A comment must start a line, and a value must have a `key`. A key that cannot be read
is passed over if its line starts with a blank. -/
def readParts (fuel : Nat) (p : Progress) (key : String) (starts : Bool) (chars : List Char) :
    Option Progress :=
  match fuel, chars with
  | _, [] => some p
  | 0, _ => none
  | fuel + 1, c :: rest =>
    if c = ';' ∨ c = '#' then
      if starts then
        let (starts, rest) := skipSpace true ((rest.dropWhile (· ≠ '\n')).drop 1)
        readParts fuel p key starts rest
      else none
    else if c = '[' then do
      let (name, rest) ← readClosed ']' rest
      let (starts, rest) := skipSpace false rest
      readParts fuel (p.openSection (trimmed name)) key starts rest
    else if c = '=' ∨ c = ':' then
      if key.isEmpty then none
      else do
        let (value, rest) ← readValue true rest.length (rest.dropWhile isInlineSpace)
        let (starts, rest) := skipSpace false rest
        readParts fuel (p.give key (String.ofList value)) "" starts rest
    else match readKey (c :: rest), Read.isBlank c with
      | .ok (key, mark :: rest), _ => readParts fuel p key false (mark :: rest)
      | .ok (_, []), true => some p
      | .error rest, true =>
        let (starts, rest) := skipSpace false rest
        readParts fuel p key starts rest
      | _, false => none

/-- Reads a text. -/
def parse? (text : String) : Option Datum :=
  let space := text.toList.takeWhile isWhiteSpace
  let starts := space.getLast?.all (· = '\n')
  (readParts text.length {} "" starts (text.toList.dropWhile isWhiteSpace)).map (.table ·.fields)

end Linewise.Ini
