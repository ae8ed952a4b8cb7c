/-!
# Blanks in a line

The line policies know four blanks: space, tab, carriage return and line feed,
the class `Char.isWhitespace`. Nothing else counts, whatever Unicode calls it.
-/

namespace Linewise.Line

/-- The characters of `chars` without those at either end that satisfy `drop`. -/
def strip (drop : Char → Bool) (chars : List Char) : List Char :=
  ((chars.dropWhile drop).reverse.dropWhile drop).reverse

/-- The characters that are not blanks. -/
def visible (chars : List Char) : List Char := chars.filter (!·.isWhitespace)

/-- The text without the blanks at its ends. -/
def trimmed (text : String) : String := String.ofList (strip Char.isWhitespace text.toList)

/-- The text without any blank. -/
def squeezed (text : String) : String := String.ofList (visible text.toList)

/-- Number of characters that are not blanks. -/
def visibleCount (text : String) : Nat := (visible text.toList).length

/-- Whether the text holds nothing but blanks. -/
def isBlank (text : String) : Bool := text.toList.all Char.isWhitespace

end Linewise.Line
