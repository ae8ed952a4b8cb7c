import Linewise.Number.Numeral

/-!
# Parts of written notations

Classes of characters and small readers that several notations have in common. A
reader takes the characters that are left and gives what it read and what
follows.
-/

namespace Linewise.Read

/-- Whether `c` separates the parts of a line. -/
def isBlank (c : Char) : Bool := c = ' ' || c = '\t'

/-- Whether `c` may stand in a bare name. -/
def isNameChar (c : Char) : Bool := c.isAlphanum || c = '_' || c = '-'

/-- What follows a given character. -/
def after? (c : Char) : List Char → Option (List Char)
  | first :: rest => if first = c then some rest else none
  | [] => none

/-- A text without the byte order mark at its start. -/
def withoutMark : List Char → List Char
  | '\uFEFF' :: rest => rest
  | chars => chars

/-- The character with the code point that hexadecimal digits write. -/
def codePoint? (digits : List Char) : Option Char :=
  (numeral? 16 digits).bind fun n => if n.isValidChar then some (Char.ofNat n) else none

/-- Reads a character as its code point in `width` hexadecimal digits. -/
def readCodePoint (width : Nat) (chars : List Char) : Option (Char × List Char) :=
  if chars.length < width then none
  else (codePoint? (chars.take width)).map (·, chars.drop width)

/-- Number of hexadecimal digits that follow the letter of an escape. -/
def escapeWidth? : Char → Option Nat
  | 'x' => some 2
  | 'u' => some 4
  | 'U' => some 8
  | _ => none

/-- The characters without those at the end that belong to a class. -/
def withoutEnd (drops : Char → Bool) (chars : List Char) : List Char :=
  (chars.reverse.dropWhile drops).reverse

end Linewise.Read
