import Linewise.Json.Decode
import Linewise.Text.Letter
import Linewise.Text.Read
import Linewise.Text.WhiteSpace

/-!
# Texts in JSON5

Texts stand between double or single quotes. A key may also be bare, if it is
made of letters and the like, some of them perhaps as code points. Comments may
stand between the parts, like white space.
-/

namespace Linewise.Json5

/-- Whether `c` ends a line. -/
def isLineEnd (c : Char) : Bool := c = '\n' || c = '\r' || c = '\u2028' || c = '\u2029'

/-- Whether `c` is white space between the parts of a text. -/
def isSpace (c : Char) : Bool := c = '\uFEFF' || (isWhiteSpace c && c != '\u0085')

/-- What follows the end of a comment over several lines. -/
def closeComment? : List Char → Option (List Char)
  | '*' :: '/' :: rest => some rest
  | _ :: rest => closeComment? rest
  | [] => none

/-- What follows white space and comments. Each comment uses up one unit of `fuel`. -/
def skipComments (fuel : Nat) (chars : List Char) : List Char :=
  match fuel, chars.dropWhile isSpace with
  | fuel + 1, '/' :: '/' :: rest => skipComments fuel (rest.dropWhile (!isLineEnd ·))
  | fuel + 1, '/' :: '*' :: rest => match closeComment? rest with
    | some rest => skipComments fuel rest
    | none => '/' :: '*' :: rest
  | _, rest => rest

/-- What follows white space and comments. -/
def skip (chars : List Char) : List Char := skipComments chars.length chars

/-- Reads an escape after its backslash, and what follows. A line end after a backslash does not
count. -/
def readEscape : List Char → Option (List Char × List Char)
  | '\r' :: '\n' :: rest => some ([], rest)
  | 'u' :: rest => (Json.readUnits rest).map fun (c, rest) => ([c], rest)
  | 'x' :: rest => (Read.readCodePoint 2 rest).map fun (c, rest) => ([c], rest)
  | '0' :: rest => if rest.head?.any Char.isDigit then none else some (['\x00'], rest)
  | 'v' :: rest => some (['\x0b'], rest)
  | c :: rest =>
    if c.isDigit then none
    else if isLineEnd c then some ([], rest)
    else some ([(Json.unescape? c).getD c], rest)
  | [] => none

/-- Reads a string up to its closing quote, and what follows. Each step uses up one unit of
`fuel`. -/
def readString (quote : Char) (fuel : Nat) (chars : List Char) :
    Option (List Char × List Char) :=
  match fuel, chars with
  | _, [] => none
  | 0, _ => none
  | fuel + 1, c :: rest =>
    if c = quote then some ([], rest)
    else if c = '\n' ∨ c = '\r' then none
    else do
      let (read, rest) ← if c = '\\' then readEscape rest else some ([c], rest)
      let (text, rest) ← readString quote fuel rest
      return (read ++ text, rest)

/-- Reads a quoted string, and what follows. -/
def readQuoted : List Char → Option (List Char × List Char)
  | '"' :: rest => readString '"' rest.length rest
  | '\'' :: rest => readString '\'' rest.length rest
  | _ => none

/-- Whether `c` may begin a bare key. -/
def isNameStart (c : Char) : Bool := isLetter c || c = '_' || c = '$'

/-- Whether `c` may stand in a bare key after its start. Among these are the two joiners without
width. -/
def isNamePart (c : Char) : Bool :=
  isNameStart c || isTrailer c || c = '\u200C' || c = '\u200D'

/-- Reads a bare key, and what follows. The next character must be `allowed`, also where its code
point is given. Each character uses up one unit of `fuel`. -/
def readNameFrom (allowed : Char → Bool) (fuel : Nat) (chars : List Char) :
    Option (List Char × List Char) :=
  match fuel, chars with
  | fuel + 1, '\\' :: 'u' :: rest => do
    let (c, rest) ← Json.readUnits rest
    if allowed c then
      let (name, rest) ← readNameFrom isNamePart fuel rest
      return (c :: name, rest)
    else none
  | fuel + 1, c :: rest =>
    if allowed c then
      (readNameFrom isNamePart fuel rest).map fun (name, rest) => (c :: name, rest)
    else some ([], c :: rest)
  | _, chars => some ([], chars)

/-- Reads a key, and what follows. -/
def readKey (chars : List Char) : Option (String × List Char) := do
  match readQuoted chars with
  | some (key, rest) => return (String.ofList key, rest)
  | none =>
    let (key, rest) ← readNameFrom isNameStart chars.length chars
    if key.isEmpty then none else return (String.ofList key, rest)

end Linewise.Json5
