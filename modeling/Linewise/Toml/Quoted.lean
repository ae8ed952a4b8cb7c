import Linewise.Toml.Line

/-!
# Strings in TOML

Strings stand between double quotes, with escapes, or between single quotes, to
the letter. Between three quotes a string may go over several lines. There a line
end right after the opening quotes does not count, and one or two quotes may
stand right before the closing ones.
-/

namespace Linewise.Toml

/-- The character that an escape of one letter stands for. -/
def escape? : Char → Option Char
  | 'b' => some '\x08'
  | 't' => some '\t'
  | 'n' => some '\n'
  | 'f' => some '\x0c'
  | 'r' => some '\r'
  | 'e' => some '\x1b'
  | '"' => some '"'
  | '\\' => some '\\'
  | _ => none

/-- Reads an escape after its backslash, and what follows. -/
def readEscape : List Char → Option (Char × List Char)
  | [] => none
  | letter :: rest => match Read.escapeWidth? letter with
    | none => (escape? letter).map (·, rest)
    | some width => Read.readCodePoint width rest

/-- The closing quotes of a long string, with up to two before them that belong to it, and what
follows. -/
def closeLong? (quote : Char) (chars : List Char) : Option (List Char × List Char) :=
  let quotes := (chars.takeWhile (· = quote)).length
  if quotes < 3 then none
  else some (List.replicate (min quotes 5 - 3) quote, chars.drop (min quotes 5))

/-- What follows a backslash that hides the line end after it and all white space from there. -/
def hiddenLineEnd? (chars : List Char) : Option (List Char) :=
  (lineEnd? (chars.dropWhile Read.isBlank)).map skipWhite

/-- Puts a character before what is read from the rest. -/
def before (c : Char) (read : Option (List Char × List Char)) : Option (List Char × List Char) :=
  read.map fun (text, rest) => (c :: text, rest)

/-- Reads a string with escapes up to its closing quotes, and what follows. Each step uses up one
unit of `fuel`, so that the number of characters is enough. -/
def readEscaped (long : Bool) (fuel : Nat) (chars : List Char) :
    Option (List Char × List Char) :=
  match fuel, chars with
  | _, [] => none
  | 0, _ => none
  | fuel + 1, '\\' :: rest =>
    match if long then hiddenLineEnd? rest else none with
    | some rest => readEscaped long fuel rest
    | none => do
      let (char, rest) ← readEscape rest
      before char (readEscaped long fuel rest)
  | fuel + 1, '"' :: rest =>
    if !long then some ([], rest)
    else (closeLong? '"' ('"' :: rest)).or (before '"' (readEscaped long fuel rest))
  | fuel + 1, '\r' :: '\n' :: rest =>
    if long then before '\r' (before '\n' (readEscaped long fuel rest)) else none
  | fuel + 1, c :: rest =>
    if isPrintable c || (long && c = '\n') then before c (readEscaped long fuel rest) else none

/-- Reads a string without escapes up to its closing quotes, and what follows. -/
def readPlain (long : Bool) : List Char → Option (List Char × List Char)
  | [] => none
  | '\'' :: rest =>
    if !long then some ([], rest)
    else (closeLong? '\'' ('\'' :: rest)).or (before '\'' (readPlain long rest))
  | '\r' :: '\n' :: rest =>
    if long then before '\r' (before '\n' (readPlain long rest)) else none
  | c :: rest =>
    if isPrintable c || (long && c = '\n') then before c (readPlain long rest) else none

/-- Reads a quoted string on one line, and what follows. -/
def readQuoted : List Char → Option (List Char × List Char)
  | '"' :: rest => readEscaped false rest.length rest
  | '\'' :: rest => readPlain false rest
  | _ => none

/-- Reads a quoted string, on one line or on several, and what follows. -/
def readString : List Char → Option (List Char × List Char)
  | '"' :: '"' :: '"' :: rest =>
    let rest := (lineEnd? rest).getD rest
    readEscaped true rest.length rest
  | '\'' :: '\'' :: '\'' :: rest => readPlain true ((lineEnd? rest).getD rest)
  | chars => readQuoted chars

end Linewise.Toml
