import Linewise.Text.Read

/-!
# Places in a text of YAML

Layout counts in YAML, so that a place in a text is known by its line and column
too. Lines end in a line feed, in a carriage return, or in both.
-/

namespace Linewise.Yaml

/-- A place in a text. -/
structure Cursor where
  /-- What follows. -/
  rest : List Char
  /-- Number of characters before. -/
  index : Nat := 0
  /-- Number of lines before. -/
  line : Nat := 0
  /-- Number of characters before in the line. -/
  column : Nat := 0
  /-- Whether nothing but white space stands before in the line. -/
  leading : Bool := true
  deriving Repr

/-- Whether `c` ends a line. -/
def isBreak (c : Char) : Bool := c = '\n' || c = '\r'

/-- Whether `c` separates words. -/
def isGap (c : Char) : Bool := Read.isBlank c || isBreak c

/-- Whether `c` has a meaning between brackets and braces. -/
def isFlow (c : Char) : Bool := [',', '[', ']', '\x7b', '\x7d'].contains c

/-- Whether a word ends before these characters. -/
def endsWord (chars : List Char) : Bool := chars.head?.all isGap

/-- Whether a line ends before these characters. -/
def endsLine (chars : List Char) : Bool := chars.head?.all isBreak

namespace Cursor

/-- The place after `n` characters that are no line ends. -/
def skip (p : Cursor) (n : Nat) : Cursor :=
  { p with rest := p.rest.drop n, index := p.index + n, column := p.column + n }

/-- The place after `n` characters that are no white space. -/
def pass (p : Cursor) (n : Nat) : Cursor := { p.skip n with leading := false }

/-- The start of the next line, from the end of a line. -/
def nextLine (p : Cursor) : Cursor :=
  let n := if ['\r', '\n'].isPrefixOf p.rest then 2 else 1
  ⟨p.rest.drop n, p.index + n, p.line + 1, 0, true⟩

/-- The place after all characters of a class, which has no line ends. -/
def skipWhile (p : Cursor) (has : Char → Bool) : Cursor := p.skip (p.rest.takeWhile has).length

/-- The place after a comment. -/
def skipComment (p : Cursor) : Cursor := p.skipWhile (!isBreak ·)

/-- The place after blanks, and a comment if one follows them. A comment without a blank before it
is refused. -/
def skipBlanks? (p : Cursor) : Option Cursor :=
  let q := p.skipWhile Read.isBlank
  if q.rest.head? = some '#' then (if q.index = p.index then none else some q.skipComment)
  else some q

/-- Whether the line holds nothing more. -/
def atLineEnd (p : Cursor) : Bool := endsLine p.rest

/-- Whether a word of three characters stands at the start of the line here. -/
def atMark (p : Cursor) (mark : String) : Bool :=
  p.column = 0 && mark.toList.isPrefixOf p.rest && endsWord (p.rest.drop 3)

/-- Whether the mark before or after a document stands here. -/
def atDocumentMark (p : Cursor) : Bool := p.atMark "---" || p.atMark "..."

end Cursor

end Linewise.Yaml
