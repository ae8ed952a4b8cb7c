import Linewise.Ron.Name
import Linewise.Text.Read

/-!
# Quoted values in RON

Strings stand between double quotes, with escapes, or to the letter after the
mark `r`, perhaps with crosses around the quotes. The mark `b` makes bytes of
them. A character stands between single quotes, and a byte too, after `b`.
-/

namespace Linewise.Ron

/-- The bytes of a character in UTF-8. -/
def utf8 (c : Char) : List UInt8 := String.utf8EncodeChar c

/-- The text that bytes write in UTF-8. -/
def text? (bytes : List UInt8) : Option String := String.fromUTF8? ⟨bytes.toArray⟩

/-- The character that an escape of one letter stands for. -/
def unescape? : Char → Option Char
  | '"' => some '"'
  | '\'' => some '\''
  | '\\' => some '\\'
  | 'n' => some '\n'
  | 'r' => some '\r'
  | 't' => some '\t'
  | '0' => some '\x00'
  | _ => none

/-- Reads a byte in two hexadecimal digits, and what follows. -/
def readByte : List Char → Option (UInt8 × List Char)
  | a :: b :: rest => (numeral? 16 [a, b]).map fun n => (n.toUInt8, rest)
  | _ => none

/-- Reads at most `missing` further escaped bytes, until they make up a character in UTF-8 together
with those already `read`, and what follows. -/
def completeChar (missing : Nat) (read : List UInt8) (chars : List Char) :
    Option (List UInt8 × List Char) :=
  if (text? read).isSome then some (read, chars)
  else match missing, chars with
    | missing + 1, '\\' :: 'x' :: rest => do
      let (byte, rest) ← readByte rest
      completeChar missing (read ++ [byte]) rest
    | _, _ => none

/-- Reads the code point of a character between braces, and what follows. -/
def readBracedPoint (chars : List Char) : Option (Char × List Char) :=
  let digits := chars.takeWhile (· ≠ '\x7d')
  if 6 < digits.length then none
  else (Read.codePoint? digits).map (·, chars.drop (digits.length + 1))

/-- Reads an escape in a string after its backslash, and what follows. An escaped byte stands for
itself in a string of bytes. In a text it begins a character, which further ones may complete. -/
def readEscape (ofBytes : Bool) : List Char → Option (List UInt8 × List Char)
  | 'x' :: rest => do
    let (byte, rest) ← readByte rest
    if ofBytes then some ([byte], rest) else completeChar 3 [byte] rest
  | 'u' :: '\x7b' :: rest => (readBracedPoint rest).map fun (c, rest) => (utf8 c, rest)
  | '\n' :: rest => some ([], rest.dropWhile isSpace)
  | c :: rest => (unescape? c).map fun c => (utf8 c, rest)
  | [] => none

/-- Reads a string with escapes up to its closing quote, and what follows. Each step uses up one
unit of `fuel`. -/
def readEscaped (ofBytes : Bool) (fuel : Nat) (chars : List Char) :
    Option (List UInt8 × List Char) :=
  match fuel, chars with
  | _, '"' :: rest => some ([], rest)
  | fuel + 1, c :: rest => do
    let (read, rest) ← if c = '\\' then readEscape ofBytes rest else some (utf8 c, rest)
    let (bytes, rest) ← readEscaped ofBytes fuel rest
    return (read ++ bytes, rest)
  | _, _ => none

/-- Reads a string without escapes up to its closing, and what follows. -/
def readUpTo (closing : List Char) : List Char → Option (List Char × List Char)
  | [] => none
  | c :: rest =>
    if closing.isPrefixOf (c :: rest) then some ([], (c :: rest).drop closing.length)
    else (readUpTo closing rest).map fun (text, rest) => (c :: text, rest)

/-- Reads a string without escapes after its mark, and what follows. It ends with a quote and as
many crosses as stand before the first one. -/
def readRaw (chars : List Char) : Option (List UInt8 × List Char) :=
  let crosses := chars.takeWhile (· = '#')
  match chars.dropWhile (· = '#') with
  | '"' :: rest => (readUpTo ('"' :: crosses) rest).map fun (text, rest) =>
      (text.flatMap utf8, rest)
  | _ => none

/-- Reads a string of bytes, and what follows. -/
def readBytes : List Char → Option (List UInt8 × List Char)
  | 'b' :: '"' :: rest => readEscaped true rest.length rest
  | 'b' :: 'r' :: rest => readRaw rest
  | _ => none

/-- Reads a string that is a text, and what follows. -/
def readText (chars : List Char) : Option (String × List Char) := do
  let (bytes, rest) ← match chars with
    | '"' :: rest => readEscaped false rest.length rest
    | 'r' :: rest => readRaw rest
    | _ => none
  return (← text? bytes, rest)

/-- Reads an escape in a character after its backslash, and what follows. An escaped byte must be a
character by itself. -/
def readCharEscape : List Char → Option (Char × List Char)
  | 'x' :: rest => do
    let (byte, rest) ← readByte rest
    if byte < 128 then some (Char.ofNat byte.toNat, rest) else none
  | 'u' :: '\x7b' :: rest => readBracedPoint rest
  | c :: rest => (unescape? c).map (·, rest)
  | [] => none

/-- Reads a character between single quotes, and what follows. -/
def readChar (chars : List Char) : Option (Char × List Char) := do
  let (c, rest) ← match chars with
    | '\'' :: '\\' :: rest => readCharEscape rest
    | '\'' :: c :: rest => some (c, rest)
    | _ => none
  return (c, ← Read.after? '\'' rest)

/-- Reads an escape of a byte after its backslash, and what follows. -/
def readByteEscape : List Char → Option (UInt8 × List Char)
  | 'x' :: rest => readByte rest
  | c :: rest => (unescape? c).map fun c => (c.toNat.toUInt8, rest)
  | [] => none

/-- Reads a byte between single quotes, and what follows. -/
def readByteChar (chars : List Char) : Option (UInt8 × List Char) := do
  let (byte, rest) ← match chars with
    | 'b' :: '\'' :: '\\' :: rest => readByteEscape rest
    | 'b' :: '\'' :: c :: rest => if c.toNat < 128 then some (c.toNat.toUInt8, rest) else none
    | _ => none
  return (byte, ← Read.after? '\'' rest)

end Linewise.Ron
